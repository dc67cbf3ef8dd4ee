import FetchNow.Basic
import FetchNow.PgBackup.Attestation

/-!
# Attestations are read back

Builder and parser state their rules separately. What the parser asks for and the builder does not
are the digests, the revision ids and a list of restored heads that is not empty.
-/
namespace FetchNow.Attestation

open Transactions Texts PgBackup

variable {lib : Library} {now : Moment} {args : Arguments} {argsV2 : ArgumentsV2}
  {a : VerificationAttestation} {b : VerificationAttestationV2} {text field : String}
  {heads : List String}

/-! ## Building -/

/-- What every attestation that is built has. -/
structure Regular (a : VerificationAttestation) (now : Moment) : Prop where
  verifiedAt : a.verifiedAtUtc = String.ofList now.strftime
  result : a.result = "passed" ∨ a.result = "failed"
  passed : a.result = "passed" → a.cleanup.ok = true ∧ a.semanticChecks.all (·.ok) = true

structure RegularV2 (b : VerificationAttestationV2) (now : Moment) : Prop where
  regular : Regular b.toVerificationAttestation now
  sorted : ∀ heads ∈ b.expectedAlembicHeads :: b.staticAlembicHeads ::
    b.verifiedRestoredHeads.toList, heads.Nodup ∧ heads.insertionSort (· ≤ ·) = heads
  nonempty : b.expectedAlembicHeads ≠ [] ∧ b.staticAlembicHeads ≠ []
  agree : b.result = "passed" → b.staticAlembicHeads = b.expectedAlembicHeads ∧
    b.verifiedRestoredHeads = some b.expectedAlembicHeads

theorem regular_of_build (h : buildAttestation now args = .ok a) : Regular a now := by
  unfold buildAttestation at h
  obtain ⟨hresult, h⟩ := require_bind_eq_ok.mp h
  obtain ⟨hcleanup, h⟩ := require_bind_eq_ok.mp h
  obtain ⟨hchecks, h⟩ := require_bind_eq_ok.mp h
  obtain ⟨-, h⟩ := require_bind_eq_ok.mp h
  cases h
  exact ⟨rfl, hresult, fun hpassed => ⟨hcleanup hpassed, hchecks hpassed⟩⟩

theorem sortedHeads_spec (heads : List String) :
    (sortedHeads heads).Nodup ∧ (sortedHeads heads).insertionSort (· ≤ ·) = sortedHeads heads := by
  refine ⟨(List.perm_insertionSort _ _).nodup_iff.mpr (List.nodup_dedup heads), ?_⟩
  exact (List.pairwise_insertionSort _ _).insertionSort_eq

theorem regular_of_buildV2 (h : buildAttestationV2 now argsV2 = .ok b) : RegularV2 b now := by
  unfold buildAttestationV2 at h
  obtain ⟨hresult, h⟩ := require_bind_eq_ok.mp h
  obtain ⟨hnonempty, h⟩ := require_bind_eq_ok.mp h
  obtain ⟨-, h⟩ := require_bind_eq_ok.mp h
  obtain ⟨hrestored, h⟩ := require_bind_eq_ok.mp h
  obtain ⟨hagree, h⟩ := require_bind_eq_ok.mp h
  obtain ⟨hcleanup, h⟩ := require_bind_eq_ok.mp h
  obtain ⟨hchecks, h⟩ := require_bind_eq_ok.mp h
  obtain ⟨-, h⟩ := require_bind_eq_ok.mp h
  cases h
  refine ⟨⟨rfl, hresult, fun hpassed => ⟨hcleanup hpassed, hchecks hpassed⟩⟩, ?_, hnonempty, ?_⟩
  · intro heads hheads
    rcases List.mem_cons.mp hheads with rfl | hheads
    · exact sortedHeads_spec _
    · rcases List.mem_cons.mp hheads with rfl | hheads
      · exact sortedHeads_spec _
      · obtain ⟨heads', -, rfl⟩ := Option.map_eq_some_iff.mp (Option.mem_toList.mp hheads)
        exact sortedHeads_spec _
  · intro hpassed
    obtain ⟨hstatic, hrestored⟩ := hagree hpassed
    exact ⟨hstatic.symm, hrestored.symm⟩

/-! ## Parts of a document -/

theorem parseSha256_eq_ok : (∃ r, parseSha256 lib (.str text) field = .ok r) ↔ IsSha256 lib text := by
  unfold parseSha256 IsSha256
  dsimp only
  by_cases hlength : text.length ≠ 64
  · rw [if_pos hlength]
    exact iff_of_false nofun fun h => hlength h.1
  · rw [if_neg hlength]
    by_cases hint : (Text.int lib.tables 16 (codePoints text)).isNone = true
    · rw [if_pos hint]
      refine iff_of_false nofun fun h => ?_
      rw [Option.isNone_iff_eq_none] at hint
      rw [hint] at h
      cases h.2.1
    · rw [if_neg hint]
      have hsome : (Text.int lib.tables 16 (codePoints text)).isSome = true := by
        rw [Option.isSome_iff_ne_none]
        exact fun h => hint (by rw [h]; rfl)
      by_cases hlower : codePoints text ≠ Text.lower (codePoints text)
      · rw [if_pos hlower]
        exact iff_of_false nofun fun h => hlower h.2.2.symm
      · rw [if_neg hlower]
        exact iff_of_true ⟨text, rfl⟩ ⟨not_not.mp hlength, hsome, (not_not.mp hlower).symm⟩

theorem eq_of_parseSha256 {r : String} (h : parseSha256 lib (.str text) field = .ok r) :
    r = text := by
  unfold parseSha256 at h
  dsimp only at h
  split_ifs at h
  exact (Except.ok.inj h).symm

theorem mapM_asdict (checks : List SemanticCheckResult) :
    (checks.map SemanticCheckResult.asdict).mapM parseSemanticCheck = .ok checks := by
  induction checks with
  | nil => rfl
  | cons c checks ih =>
    have hc : parseSemanticCheck c.asdict = .ok c := rfl
    rw [List.map_cons, List.mapM_cons, hc, ih]
    rfl

theorem parseCleanup_asdict (c : Cleanup) : parseCleanup c.asdict = .ok c := by
  obtain ⟨ok, dropped⟩ := c
  cases dropped <;> rfl

theorem parseUtc_strftime (now : Moment) :
    parseUtc (.str (String.ofList now.strftime)) field = .ok (String.ofList now.strftime) := by
  unfold parseUtc
  dsimp only
  rw [if_pos]
  simp [Moment.strftime, List.getLast?_append, List.getLast?_cons]

/-! ## Lists of heads -/

theorem strip_revision (h : isRevisionId text = true) : PgBackup.strip text = text := by
  rw [isRevisionId, Bool.and_eq_true, List.all_eq_true] at h
  have hblank : ∀ c ∈ text.toList, Text.isSpace (codePoint c) = false := by
    intro c hc
    have hrange : 48 ≤ codePoint c ∧ codePoint c ≤ 122 := by
      unfold codePoint
      have hchar := h.2 c hc
      rw [Bool.or_eq_true, beq_iff_eq, isAlphanum_iff] at hchar
      rcases hchar with hchar | hchar
      · omega
      · subst hchar
        decide
    rw [Bool.eq_false_iff]
    intro hspace
    simp only [Text.isSpace, Text.isAsciiSpace, Bool.or_eq_true, Bool.and_eq_true,
      decide_eq_true_eq, beq_iff_eq] at hspace
    omega
  have hdrop : ∀ l : List Char, (∀ c ∈ l, Text.isSpace (codePoint c) = false) →
      l.dropWhile (fun c => Text.isSpace (codePoint c)) = l := by
    intro l hl
    cases l with
    | nil => rfl
    | cons c l => exact List.dropWhile_cons_of_neg (by simp [hl c List.mem_cons_self])
  unfold PgBackup.strip
  dsimp only
  rw [hdrop _ hblank, hdrop _ (by simpa using hblank), List.reverse_reverse, String.ofList_toList]

theorem readHeads_of_revisions {before : List String}
    (hrevisions : ∀ rev ∈ heads, isRevisionId rev = true) (hnodup : (before ++ heads).Nodup) :
    readHeads field before (heads.map .str) = .ok (before ++ heads) := by
  induction heads generalizing before with
  | nil => simp [readHeads]
  | cons rev heads ih =>
    have hrev := hrevisions rev List.mem_cons_self
    have hfresh : rev ∉ before := by
      intro hmem
      exact (List.nodup_append.mp hnodup).2.2 rev hmem rev List.mem_cons_self rfl
    rw [List.map_cons, readHeads, strip_revision hrev, validateRevisionId, if_pos hrev]
    change (require (rev ∉ before) _ >>= _) = _
    rw [require_true hfresh, ok_bind, ih (fun r hr => hrevisions r (List.mem_cons_of_mem _ hr))
      (by simpa using hnodup)]
    simp

theorem revisions_of_readHeads {before result : List String} {raw : List Json}
    (h : readHeads field before raw = .ok result) (hbefore : ∀ rev ∈ before, isRevisionId rev = true) :
    ∀ rev ∈ result, isRevisionId rev = true := by
  induction raw generalizing before with
  | nil =>
    cases h
    exact hbefore
  | cons item raw ih =>
    cases item with
    | str item =>
      rw [readHeads] at h
      obtain ⟨rev, hrev, h⟩ := bind_eq_ok.mp h
      obtain ⟨-, h⟩ := require_bind_eq_ok.mp h
      apply ih h
      intro r hr
      rcases List.mem_append.mp hr with hr | hr
      · exact hbefore r hr
      · obtain rfl := List.mem_singleton.mp hr
        unfold validateRevisionId at hrev
        by_cases hid : isRevisionId (PgBackup.strip item) = true
        · rw [if_pos hid] at hrev
          cases hrev
          exact hid
        · rw [if_neg hid] at hrev
          cases hrev
    | _ => cases h

theorem parseHeadList_arr {raw : List Json} (hraw : raw ≠ []) :
    parseHeadList (.arr raw) field = (readHeads field [] raw >>= fun heads =>
      require (heads.insertionSort (· ≤ ·) = raw.filterMap asText)
        (.attestationError s!"{field} must be sorted unique revision IDs") >>= fun _ =>
      .ok (heads.insertionSort (· ≤ ·))) := by
  cases raw with
  | nil => exact absurd rfl hraw
  | cons item raw => rfl

theorem filterMap_asText (heads : List String) :
    (heads.map Json.str).filterMap asText = heads := by
  rw [List.filterMap_map]
  exact List.filterMap_some

/-- A list that the builder sorted is read back if its heads are revision ids. -/
theorem parseHeadList_eq_ok (hnodup : heads.Nodup)
    (hsorted : heads.insertionSort (· ≤ ·) = heads) :
    (∃ r, parseHeadList (ofHeads heads) field = .ok r) ↔
      heads ≠ [] ∧ ∀ rev ∈ heads, isRevisionId rev = true := by
  by_cases hempty : heads = []
  · subst hempty
    exact iff_of_false nofun fun h => h.1 rfl
  · have hraw : heads.map Json.str ≠ [] := by simpa using hempty
    rw [ofHeads, parseHeadList_arr hraw, filterMap_asText]
    constructor
    · rintro ⟨r, h⟩
      obtain ⟨items, hitems, h⟩ := bind_eq_ok.mp h
      obtain ⟨hequal, -⟩ := require_bind_eq_ok.mp h
      refine ⟨hempty, fun head hhead => ?_⟩
      rw [← hequal, (List.perm_insertionSort _ _).mem_iff] at hhead
      exact revisions_of_readHeads hitems (by simp) head hhead
    · rintro ⟨-, hrevisions⟩
      have hread := @readHeads_of_revisions field heads [] hrevisions hnodup
      rw [List.nil_append] at hread
      rw [hread, ok_bind, require_true hsorted, ok_bind]
      exact ⟨_, rfl⟩

theorem eq_of_parseHeadList {r : List String} (h : parseHeadList (ofHeads heads) field = .ok r) :
    r = heads := by
  by_cases hempty : heads = []
  · subst hempty
    cases h
  · have hraw : heads.map Json.str ≠ [] := by simpa using hempty
    rw [ofHeads, parseHeadList_arr hraw, filterMap_asText] at h
    obtain ⟨items, -, h⟩ := bind_eq_ok.mp h
    obtain ⟨hequal, h⟩ := require_bind_eq_ok.mp h
    rw [← hequal]
    exact (Except.ok.inj h).symm

/-! ## Documents -/

/-- What the parser asks of an attestation and the builder does not. -/
structure Readable (lib : Library) (a : VerificationAttestation) : Prop where
  sha256 : IsSha256 lib a.backupSha256
  duration : a.restoreDurationSeconds ≠ .float .nan

structure ReadableV2 (lib : Library) (b : VerificationAttestationV2) : Prop where
  readable : Readable lib b.toVerificationAttestation
  graphSha256 : IsSha256 lib b.migrationsGraphSha256
  expected : ∀ rev ∈ b.expectedAlembicHeads, isRevisionId rev = true
  static : ∀ rev ∈ b.staticAlembicHeads, isRevisionId rev = true
  restored : ∀ heads ∈ b.verifiedRestoredHeads, heads ≠ [] ∧ ∀ rev ∈ heads, isRevisionId rev = true

def IsReadable (lib : Library) : ParsedAttestation → Prop
  | .v1 a => Readable lib a
  | .v2 b => ReadableV2 lib b

/-- `==` of attestations: a NaN equals nothing. -/
def PyEq (a b : ParsedAttestation) : Prop :=
  a = b ∧ a.common.restoreDurationSeconds ≠ .float .nan

/-- The document parses to the attestation. -/
def ReadsBack (lib : Library) (a : ParsedAttestation) : Prop :=
  ∃ b, parseAttestationDocument lib a.toJson = .ok b ∧ PyEq b a

theorem parseResult_regular (h : Regular a now) : parseResult (.str a.result) = .ok a.result :=
  if_pos h.result

theorem parseFields_eq {raw : Object} (hsha : get raw "backup_sha256" = .str a.backupSha256)
    (hutc : get raw "verified_at_utc" = .str a.verifiedAtUtc)
    (hid : get raw "backup_id" = .str a.backupId)
    (hpostgres : get raw "postgres_version" = .str a.postgresVersion)
    (hrestore : get raw "pg_restore_version" = .str a.pgRestoreVersion)
    (hdatabase : get raw "temporary_database" = a.temporaryDatabase)
    (hduration : get raw "restore_duration_seconds" = a.restoreDurationSeconds)
    (hreason : get raw "failure_reason" = a.failureReason)
    (htool : get raw "tool_version" = .str a.toolVersion) (hregular : Regular a now) :
    parseFields lib raw (.ok a.semanticChecks) (.ok a.cleanup) a.result =
      (parseSha256 lib (.str a.backupSha256) "backup_sha256").map fun _ => a := by
  unfold parseFields
  rw [hsha, hutc, hid, hpostgres, hrestore, hdatabase, hduration, hreason, htool,
    hregular.verifiedAt, parseUtc_strftime]
  cases hparse : parseSha256 lib (.str a.backupSha256) "backup_sha256" with
  | error e => rfl
  | ok sha =>
    obtain rfl := eq_of_parseSha256 hparse
    rw [ok_bind, ok_bind, ok_bind, ok_bind, ← hregular.verifiedAt]
    rfl

theorem readsBack_v1 (h : Regular a now) : ReadsBack lib (.v1 a) ↔ Readable lib a := by
  have hparse : parseAttestationDocument lib (ParsedAttestation.v1 a).toJson =
      (parseSha256 lib (.str a.backupSha256) "backup_sha256").map fun _ => .v1 a := by
    have hchecks : parseSemanticChecks (.arr (a.semanticChecks.map SemanticCheckResult.asdict)) =
        .ok a.semanticChecks := mapM_asdict _
    change (parseAttestationV1 lib (ParsedAttestation.v1 a).toJson).map _ = _
    unfold parseAttestationV1
    change (parseResult (.str a.result) >>= fun result => parseFields lib _
      (parseSemanticChecks (.arr (a.semanticChecks.map SemanticCheckResult.asdict)))
      (parseCleanup a.cleanup.asdict) result).map _ = _
    rw [parseResult_regular h, ok_bind, hchecks, parseCleanup_asdict,
      parseFields_eq rfl rfl rfl rfl rfl rfl rfl rfl rfl h]
    cases parseSha256 lib (.str a.backupSha256) "backup_sha256" <;> rfl
  unfold ReadsBack
  rw [hparse]
  constructor
  · rintro ⟨b, hb, rfl, hnan⟩
    cases hsha : parseSha256 lib (.str a.backupSha256) "backup_sha256" with
    | error e =>
      rw [hsha] at hb
      cases hb
    | ok sha => exact ⟨parseSha256_eq_ok.mp ⟨sha, hsha⟩, hnan⟩
  · rintro ⟨hsha, hnan⟩
    obtain ⟨sha, hsha⟩ := parseSha256_eq_ok.mpr hsha
    exact ⟨.v1 a, by rw [hsha]; rfl, rfl, hnan⟩

/-- A passed attestation satisfies what the parser asks of one. -/
theorem checkPassed_regular (h : RegularV2 b now) (hpassed : b.result = "passed") :
    checkPassed b.expectedAlembicHeads b.staticAlembicHeads b.verifiedRestoredHeads b.cleanup
      b.semanticChecks = .ok () := by
  obtain ⟨hstatic, hrestored⟩ := h.agree hpassed
  obtain ⟨hcleanup, hchecks⟩ := h.regular.passed hpassed
  unfold checkPassed
  rw [hstatic, hrestored, require_true (by simp), ok_bind, require_true (by simp), ok_bind,
    require_true hcleanup, ok_bind, require_true hchecks]

theorem parseOptionalHeadList_eq_ok {restored : Option (List String)}
    (h : ∀ heads ∈ restored, heads.Nodup ∧ heads.insertionSort (· ≤ ·) = heads) :
    (∃ r, parseOptionalHeadList ((restored.map ofHeads).getD .null) field = .ok r) ↔
      ∀ heads ∈ restored, heads ≠ [] ∧ ∀ rev ∈ heads, isRevisionId rev = true := by
  cases restored with
  | none => exact iff_of_true ⟨none, rfl⟩ nofun
  | some heads =>
    obtain ⟨hnodup, hsorted⟩ := h heads rfl
    have hlist := @parseHeadList_eq_ok field heads hnodup hsorted
    change (∃ r, (parseHeadList (ofHeads heads) field).map some = .ok r) ↔ _
    constructor
    · rintro ⟨r, hr⟩ heads' ⟨⟩
      cases hparse : parseHeadList (ofHeads heads) field with
      | error e =>
        rw [hparse] at hr
        cases hr
      | ok r' => exact hlist.mp ⟨r', hparse⟩
    · intro hall
      obtain ⟨r, hr⟩ := hlist.mpr (hall heads rfl)
      exact ⟨some r, by rw [hr]; rfl⟩

theorem eq_of_parseOptionalHeadList {restored r : Option (List String)}
    (h : parseOptionalHeadList ((restored.map ofHeads).getD .null) field = .ok r) :
    r = restored := by
  cases restored with
  | none =>
    cases h
    rfl
  | some heads =>
    change (parseHeadList (ofHeads heads) field).map some = .ok r at h
    cases hparse : parseHeadList (ofHeads heads) field with
    | error e =>
      rw [hparse] at h
      cases h
    | ok r' =>
      rw [hparse] at h
      cases h
      rw [eq_of_parseHeadList hparse]

/-- The parse of an attestation that was built: each step gives back what it reads. -/
theorem parseAttestationV2_eq (h : RegularV2 b now) :
    parseAttestationV2 lib (ParsedAttestation.v2 b).toJson =
      (parseHeadList (ofHeads b.expectedAlembicHeads) "expected_alembic_heads" >>= fun expected =>
        parseHeadList (ofHeads b.staticAlembicHeads) "static_alembic_heads" >>= fun static =>
        parseOptionalHeadList ((b.verifiedRestoredHeads.map ofHeads).getD .null)
          "verified_restored_heads" >>= fun restored =>
        parseSha256 lib (.str b.migrationsGraphSha256) "migrations_graph_sha256" >>= fun graphSha =>
        (if b.result = "passed" then
          checkPassed expected static restored b.cleanup b.semanticChecks else .ok ()) >>= fun _ =>
        (parseSha256 lib (.str b.backupSha256) "backup_sha256").map fun _ =>
          { b with expectedAlembicHeads := expected, staticAlembicHeads := static
                   migrationsGraphSha256 := graphSha, verifiedRestoredHeads := restored }) := by
  have hchecks : parseSemanticChecks (.arr (b.semanticChecks.map SemanticCheckResult.asdict)) =
      .ok b.semanticChecks := mapM_asdict _
  unfold parseAttestationV2
  change (parseResult (.str b.result) >>= _) = _
  rw [parseResult_regular h.regular, ok_bind]
  refine congrArg _ (funext fun expected => ?_)
  refine congrArg _ (funext fun static => ?_)
  refine congrArg _ (funext fun restored => ?_)
  refine congrArg _ (funext fun graphSha => ?_)
  change (parseCleanup b.cleanup.asdict >>= fun cleanup =>
    parseSemanticChecks (.arr (b.semanticChecks.map SemanticCheckResult.asdict)) >>= _) = _
  rw [parseCleanup_asdict, ok_bind, hchecks, ok_bind]
  have hfields := @parseFields_eq lib now b.toVerificationAttestation
    (ParsedAttestation.v2 b).toJson rfl rfl rfl rfl rfl rfl rfl rfl rfl h.regular
  dsimp only
  rw [hfields]
  by_cases hpassed : b.result = "passed"
  · rw [if_pos hpassed, if_pos hpassed]
    refine congrArg _ (funext fun _ => ?_)
    cases parseSha256 lib (.str b.backupSha256) "backup_sha256" <;> rfl
  · rw [if_neg hpassed, if_neg hpassed]
    cases parseSha256 lib (.str b.backupSha256) "backup_sha256" <;> rfl

theorem readsBack_v2 (h : RegularV2 b now) : ReadsBack lib (.v2 b) ↔ ReadableV2 lib b := by
  have hdocument : parseAttestationDocument lib (ParsedAttestation.v2 b).toJson =
      (parseAttestationV2 lib (ParsedAttestation.v2 b).toJson).map .v2 := rfl
  have hexpected := @parseHeadList_eq_ok "expected_alembic_heads" b.expectedAlembicHeads
    (h.sorted _ (by simp)).1 (h.sorted _ (by simp)).2
  have hstatic := @parseHeadList_eq_ok "static_alembic_heads" b.staticAlembicHeads
    (h.sorted _ (by simp)).1 (h.sorted _ (by simp)).2
  have hrestored := @parseOptionalHeadList_eq_ok "verified_restored_heads" b.verifiedRestoredHeads
    fun heads hheads => h.sorted heads (by simp [Option.mem_toList.mpr hheads])
  have hcheck : (if b.result = "passed" then checkPassed b.expectedAlembicHeads
      b.staticAlembicHeads b.verifiedRestoredHeads b.cleanup b.semanticChecks else .ok ()) =
      (.ok () : Except Failure Unit) := by
    by_cases hpassed : b.result = "passed"
    · rw [if_pos hpassed, checkPassed_regular h hpassed]
    · rw [if_neg hpassed]
  unfold ReadsBack
  rw [hdocument, parseAttestationV2_eq h]
  constructor
  · rintro ⟨parsed, hparsed, rfl, hnan⟩
    cases hparse : parseAttestationV2 lib (ParsedAttestation.v2 b).toJson with
    | error e =>
      rw [parseAttestationV2_eq h] at hparse
      rw [hparse] at hparsed
      cases hparsed
    | ok b' =>
      rw [parseAttestationV2_eq h] at hparse
      obtain ⟨expected, hexpected', hparse⟩ := bind_eq_ok.mp hparse
      obtain ⟨static, hstatic', hparse⟩ := bind_eq_ok.mp hparse
      obtain ⟨restored, hrestored', hparse⟩ := bind_eq_ok.mp hparse
      obtain ⟨graphSha, hgraph, hparse⟩ := bind_eq_ok.mp hparse
      obtain ⟨-, -, hparse⟩ := bind_eq_ok.mp hparse
      cases hsha : parseSha256 lib (.str b.backupSha256) "backup_sha256" with
      | error e =>
        rw [hsha] at hparse
        cases hparse
      | ok sha =>
        exact ⟨⟨parseSha256_eq_ok.mp ⟨sha, hsha⟩, hnan⟩, parseSha256_eq_ok.mp ⟨graphSha, hgraph⟩,
          (hexpected.mp ⟨expected, hexpected'⟩).2, (hstatic.mp ⟨static, hstatic'⟩).2,
          hrestored.mp ⟨restored, hrestored'⟩⟩
  · rintro ⟨⟨hsha, hnan⟩, hgraph, hexp, hsta, hres⟩
    obtain ⟨expected, hexpected'⟩ := hexpected.mpr ⟨h.nonempty.1, hexp⟩
    obtain ⟨static, hstatic'⟩ := hstatic.mpr ⟨h.nonempty.2, hsta⟩
    obtain ⟨restored, hrestored'⟩ := hrestored.mpr hres
    obtain ⟨graphSha, hgraph'⟩ := (@parseSha256_eq_ok lib _ "migrations_graph_sha256").mpr hgraph
    obtain ⟨sha, hsha'⟩ := (@parseSha256_eq_ok lib _ "backup_sha256").mpr hsha
    obtain rfl := eq_of_parseHeadList hexpected'
    obtain rfl := eq_of_parseHeadList hstatic'
    obtain rfl := eq_of_parseOptionalHeadList hrestored'
    obtain rfl := eq_of_parseSha256 hgraph'
    refine ⟨.v2 b, ?_, rfl, hnan⟩
    rw [hexpected', ok_bind, hstatic', ok_bind, hrestored', ok_bind, hgraph', ok_bind, hcheck,
      ok_bind, hsha']
    rfl

/-- Attestations that were built at some time. -/
inductive Built : ParsedAttestation → Moment → Prop where
  | v1 {now : Moment} {args : Arguments} {a : VerificationAttestation}
      (h : buildAttestation now args = .ok a) : Built (.v1 a) now
  | v2 {now : Moment} {args : ArgumentsV2} {b : VerificationAttestationV2}
      (h : buildAttestationV2 now args = .ok b) : Built (.v2 b) now

theorem Built.regular {a : ParsedAttestation} (h : Built a now) : Regular a.common now := by
  cases h with
  | v1 h => exact regular_of_build h
  | v2 h => exact (regular_of_buildV2 h).regular

/-- What was built is read back if and only if it is readable. -/
theorem Built.readsBack_iff {a : ParsedAttestation} (h : Built a now) :
    ReadsBack lib a ↔ IsReadable lib a := by
  cases h with
  | v1 h => exact readsBack_v1 (regular_of_build h)
  | v2 h => exact readsBack_v2 (regular_of_buildV2 h)

end FetchNow.Attestation
