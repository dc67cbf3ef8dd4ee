import FetchNow.Downloads.Repository

/-!
# `ArtifactStore`

Attempt workspaces, publications with their private manifest, and the bodies of the two loops of
`reconcile`. Times of the file system and of the database are readings of one clock.
-/
namespace FetchNow

open Transactions

/-! ## Manifests -/

/-- The object in `manifest.json`. -/
structure Manifest where
  schemaVersion : Int
  downloadJobId : Uuid
  fence : Nat
  attempt : Int
  formatOptionId : String
  size : Nat
  sha256 : String
  container : String
  contentType : String
  createdAt : String
  expiresAt : String
  deriving DecidableEq, Repr

/-- `_ALLOWED_CONTAINERS`. -/
def allowedContainers : List String := ["mp4", "webm", "mkv", "m4a", "mp3", "ogg", "opus", "aac"]

/-- `_CONTENT_TYPES`. -/
def contentTypes : String → Option String
  | "mp4" => some "video/mp4"
  | "webm" => some "video/webm"
  | "mkv" => some "video/x-matroska"
  | "m4a" => some "audio/mp4"
  | "mp3" => some "audio/mpeg"
  | "ogg" => some "audio/ogg"
  | "opus" => some "audio/ogg"
  | "aac" => some "audio/aac"
  | _ => none

/-- `_ALLOWED_CONTENT_TYPES`. -/
def allowedContentTypes : String → List String
  | "mp4" => ["video/mp4", "audio/mp4"]
  | "webm" => ["video/webm", "audio/webm"]
  | "mkv" => ["video/x-matroska", "audio/x-matroska"]
  | container => (contentTypes container).toList

def invalidOutput (reason : String) : Raised := .downloadError .downloadInvalidOutput reason

/-- The container is already stripped and in lower case. -/
def contentTypeForContainer (container : String) (mediaKind : MediaKind) :
    Except Raised String :=
  match contentTypes container with
  | none => .error (invalidOutput "UNKNOWN_CONTAINER")
  | some contentType =>
    .ok (if mediaKind = .audioOnly then
        match container with
        | "mp4" => "audio/mp4"
        | "webm" => "audio/webm"
        | "mkv" => "audio/x-matroska"
        | _ => contentType
      else contentType)

/-- What `hexdigest` of SHA-256 returns. -/
def IsHexDigest (sha256 : String) : Prop :=
  sha256.length = 64 ∧ ∀ c ∈ sha256.toList, c ∈ "0123456789abcdef".toList

instance (sha256 : String) : Decidable (IsHexDigest sha256) := inferInstanceAs (Decidable (_ ∧ _))

/-- `_parse_manifest` on a well-formed JSON object with exactly the manifest keys. -/
def parseManifest (manifest : Manifest) : Option Manifest :=
  if manifest.schemaVersion = 1 ∧ 1 ≤ manifest.attempt ∧ 0 < manifest.size ∧
      IsHexDigest manifest.sha256 ∧ manifest.container ∈ allowedContainers ∧
      manifest.contentType ∈ allowedContentTypes manifest.container ∧
      (manifest.formatOptionId ≠ "" ∧ manifest.formatOptionId.length ≤ 64) ∧
      (manifest.createdAt ≠ "" ∧ manifest.expiresAt ≠ "") then
    some manifest
  else none

/-- What an executor downloaded. -/
structure Output where
  container : String
  mediaKind : MediaKind
  size : Nat
  sha256 : String
  createdAt : String
  expiresAt : String
  deriving DecidableEq, Repr

/-- The manifest that `publish` writes for the attempt of a claim. -/
def publishManifest (snap : MediaDownloadJob) (output : Output) : Except Raised Manifest := do
  require (output.container ∈ allowedContainers) (invalidOutput "CONTAINER_NOT_ALLOWED")
  require (0 < output.size) (invalidOutput "EMPTY_ARTIFACT")
  let contentType ← contentTypeForContainer output.container output.mediaKind
  .ok
    { schemaVersion := 1, downloadJobId := snap.id, fence := snap.fenceToken,
      attempt := snap.attemptCount, formatOptionId := snap.target.formatOptionId,
      size := output.size, sha256 := output.sha256, container := output.container, contentType,
      createdAt := output.createdAt, expiresAt := output.expiresAt }

theorem contentTypeForContainer_allowed {container contentType : String} {mediaKind : MediaKind}
    (hcontainer : container ∈ allowedContainers)
    (h : contentTypeForContainer container mediaKind = .ok contentType) :
    contentType ∈ allowedContentTypes container := by
  simp only [allowedContainers, List.mem_cons, List.not_mem_nil, or_false] at hcontainer
  rcases hcontainer with rfl | rfl | rfl | rfl | rfl | rfl | rfl | rfl <;>
    cases mediaKind <;> cases h <;> decide

/-- `_parse_manifest` reads back what `publish` wrote. -/
theorem parseManifest_published {snap : MediaDownloadJob} {output : Output} {manifest : Manifest}
    (h : publishManifest snap output = .ok manifest) (hattempt : 1 ≤ snap.attemptCount)
    (hoption : snap.target.formatOptionId ≠ "" ∧ snap.target.formatOptionId.length ≤ 64)
    (hdigest : IsHexDigest output.sha256)
    (htimes : output.createdAt ≠ "" ∧ output.expiresAt ≠ "") :
    parseManifest manifest = some manifest ∧ manifest.downloadJobId = snap.id ∧
      manifest.fence = snap.fenceToken := by
  simp only [publishManifest, bind_eq_ok, require_eq_ok] at h
  obtain ⟨_, hcontainer, _, hsize, contentType, htype, h⟩ := h
  cases h
  refine ⟨if_pos ⟨rfl, hattempt, hsize, hdigest, hcontainer, ?_, hoption, htimes⟩, rfl, rfl⟩
  exact contentTypeForContainer_allowed hcontainer htype

/-! ## Directory entries -/

inductive EntryKind where
  | symlink
  | directory
  | file
  deriving DecidableEq, Repr

/-- A directory `{job}/{attempt}_{fence}` under the root. -/
structure AttemptEntry where
  jobId : Uuid
  attempt : Int
  fence : Nat
  kind : EntryKind
  mtime : Timestamp
  deriving DecidableEq, Repr

/-- The name of an entry of `published`: `.partial_{id}`, `{id}`, or litter. -/
inductive EntryName where
  | staging (artifactId : Uuid)
  | final (artifactId : Uuid)
  | litter (name : String)
  deriving DecidableEq, Repr

def EntryName.artifactId : EntryName → Option Uuid
  | staging artifactId | final artifactId => some artifactId
  | litter _ => none

/-- An entry of `published`; `manifest` is what its `manifest.json` holds, if it is readable. -/
structure PublishedEntry where
  name : EntryName
  kind : EntryKind
  mtime : Timestamp
  manifest : Option Manifest
  deriving DecidableEq, Repr

/-! ## The orphan sweep -/

/-- `_aged_out`. -/
def AgedOut (now grace mtime : Timestamp) : Prop := grace ≤ now - mtime

instance (now grace mtime : Timestamp) : Decidable (AgedOut now grace mtime) :=
  inferInstanceAs (Decidable (_ ≤ _))

/-- The body of the loop over attempt workspaces: whether the entry is removed. -/
def attemptSwept (active : List (Uuid × Nat)) (now grace : Timestamp) (entry : AttemptEntry) :
    Bool :=
  match entry.kind with
  | .symlink => AgedOut now grace entry.mtime
  | .file => false
  | .directory =>
    if (entry.jobId, entry.fence) ∈ active then false else AgedOut now grace entry.mtime

/-- The body of the loop over publications: whether the entry is removed. -/
def publishedSwept (referenced : List Uuid) (active : List (Uuid × Nat)) (now grace : Timestamp)
    (entry : PublishedEntry) : Bool :=
  if ¬ AgedOut now grace entry.mtime then false
  else if entry.kind = .symlink then true
  else
    match entry.name with
    | .staging _ => true
    | .litter _ => true
    | .final artifactId =>
      if entry.kind ≠ .directory then true
      else
        match entry.manifest.bind parseManifest with
        | none => true
        | some manifest =>
          ¬ (artifactId ∈ referenced ∨ (manifest.downloadJobId, manifest.fence) ∈ active)

/-- Only an aged workspace of an inactive attempt is removed. -/
theorem attemptSwept_directory {active : List (Uuid × Nat)} {now grace : Timestamp}
    {entry : AttemptEntry} (hkind : entry.kind = .directory)
    (h : attemptSwept active now grace entry = true) :
    (entry.jobId, entry.fence) ∉ active ∧ AgedOut now grace entry.mtime := by
  simpa [attemptSwept, hkind] using h

theorem publishedSwept_aged {referenced : List Uuid} {active : List (Uuid × Nat)}
    {now grace : Timestamp} {entry : PublishedEntry}
    (h : publishedSwept referenced active now grace entry = true) :
    AgedOut now grace entry.mtime := by
  by_contra haged
  simp [publishedSwept, haged] at h

/-- A publication with a manifest is removed only when nobody refers to it and its attempt is
inactive. -/
theorem publishedSwept_final {referenced : List Uuid} {active : List (Uuid × Nat)}
    {now grace : Timestamp} {entry : PublishedEntry} {artifactId : Uuid} {manifest : Manifest}
    (hname : entry.name = .final artifactId) (hkind : entry.kind = .directory)
    (hmanifest : entry.manifest.bind parseManifest = some manifest)
    (h : publishedSwept referenced active now grace entry = true) :
    artifactId ∉ referenced ∧ (manifest.downloadJobId, manifest.fence) ∉ active := by
  simpa [publishedSwept, publishedSwept_aged h, hname, hkind, hmanifest] using h

end FetchNow
