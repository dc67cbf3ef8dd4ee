import FetchNow.Basic
import Mathlib.Data.List.Sort
import Mathlib.Data.Finset.Dedup
import Mathlib.Data.Finset.Insert
import Mathlib.Data.String.Basic

/-!
# Release documents

JSON documents of the release tools, the identifiers in them, and the exceptions of the tools.
-/
namespace FetchNow.Release

open Transactions

/-- Exceptions of the release tools, by class. -/
inductive ReleaseError where
  | rolloutError
  | recoverError
  | migrationError
  | migrationPlanError
  | migrationRecoverError
  | bootstrapDbError
  | configRolloutError
  | journalError
  | migrationJournalError
  | bootstrapJournalError
  | configJournalError
  | journalIOError
  | manifestError
  | overrideError
  | dbHeadsError
  | imageIdentityError
  | activateError
  | bootstrapCleanupError
  | stabilizeError
  | rolloutLockError
  | releaseVerifyError
  | revisionError
  | currentStateError
  | compatibilityError
  | databaseDriftError
  | backupSessionError
  | retentionHoldError
  | healthError
  | deployRootError
  | alembicMigrateError
  | bootstrapFreshnessError
  | bootstrapProjectError
  | postgresBootstrapError
  | passwordError
  | envFileError
  | dockerCheckError
  | configContractError
  | configStateError
  | osError
  | valueError
  /- `RuntimeError`, `KeyError`, `AttributeError`, ... -/
  | otherError
  deriving DecidableEq, Repr

/-- `except ValueError` takes these. -/
def ReleaseError.isValueError : ReleaseError → Bool
  | journalError | migrationJournalError | bootstrapJournalError | configJournalError
  | manifestError | overrideError | releaseVerifyError | revisionError | currentStateError
  | retentionHoldError | healthError | deployRootError | bootstrapProjectError | passwordError
  | envFileError | dockerCheckError | configContractError | configStateError | valueError => true
  | _ => false

/-! ## JSON -/

inductive Json where
  | null
  | bool (value : Bool)
  | int (value : Int)
  | str (value : String)
  | list (items : List Json)
  | obj (members : List (String × Json))

mutual

def Json.decEq : (a b : Json) → Decidable (a = b)
  | .null, b => match b with
    | .null => isTrue rfl
    | .bool _ | .int _ | .str _ | .list _ | .obj _ => isFalse nofun
  | .bool x, b => match b with
    | .bool y => decidable_of_iff (x = y) (by simp)
    | .null | .int _ | .str _ | .list _ | .obj _ => isFalse nofun
  | .int x, b => match b with
    | .int y => decidable_of_iff (x = y) (by simp)
    | .null | .bool _ | .str _ | .list _ | .obj _ => isFalse nofun
  | .str x, b => match b with
    | .str y => decidable_of_iff (x = y) (by simp)
    | .null | .bool _ | .int _ | .list _ | .obj _ => isFalse nofun
  | .list xs, b => match b with
    | .list ys => match Json.itemsDecEq xs ys with
      | isTrue h => isTrue (congrArg _ h)
      | isFalse h => isFalse fun heq => h (by injection heq)
    | .null | .bool _ | .int _ | .str _ | .obj _ => isFalse nofun
  | .obj xs, b => match b with
    | .obj ys => match Json.membersDecEq xs ys with
      | isTrue h => isTrue (congrArg _ h)
      | isFalse h => isFalse fun heq => h (by injection heq)
    | .null | .bool _ | .int _ | .str _ | .list _ => isFalse nofun

def Json.itemsDecEq : (xs ys : List Json) → Decidable (xs = ys)
  | [], [] => isTrue rfl
  | [], _ :: _ => isFalse nofun
  | _ :: _, [] => isFalse nofun
  | x :: xs, y :: ys => match Json.decEq x y, Json.itemsDecEq xs ys with
    | isTrue hx, isTrue hxs => isTrue (by rw [hx, hxs])
    | isFalse hx, _ => isFalse fun heq => hx (by injection heq)
    | _, isFalse hxs => isFalse fun heq => hxs (by injection heq)

def Json.membersDecEq : (xs ys : List (String × Json)) → Decidable (xs = ys)
  | [], [] => isTrue rfl
  | [], _ :: _ => isFalse nofun
  | _ :: _, [] => isFalse nofun
  | (k, x) :: xs, (l, y) :: ys =>
    match instDecidableEqString k l, Json.decEq x y, Json.membersDecEq xs ys with
    | isTrue hk, isTrue hx, isTrue hxs => isTrue (by rw [hk, hx, hxs])
    | isFalse hk, _, _ => isFalse fun heq => hk (by simp at heq; exact heq.1.1)
    | _, isFalse hx, _ => isFalse fun heq => hx (by simp at heq; exact heq.1.2)
    | _, _, isFalse hxs => isFalse fun heq => hxs (by simp at heq; exact heq.2)

end

instance : DecidableEq Json := Json.decEq

/-- `raw[key]`, where the keys are known to be there. -/
def item (members : List (String × Json)) (key : String) : Json :=
  (members.lookup key).getD .null

@[simp] theorem item_cons_self {members : List (String × Json)} {key : String} {value : Json} :
    item ((key, value) :: members) key = value := by
  simp [item]

@[simp] theorem item_cons_of_ne {members : List (String × Json)} {key key' : String} {value : Json}
    (h : key' ≠ key) : item ((key, value) :: members) key' = item members key' := by
  simp [item, List.lookup_cons, beq_eq_false_iff_ne.mpr h]

/-- `set(raw)`. -/
def keys (members : List (String × Json)) : Finset String :=
  (members.map Prod.fst).toFinset

/-- How `json.dumps` lays a document out. -/
inductive Layout where
  | indented
  | compact
  deriving DecidableEq, Repr

/-- The bytes of a JSON file. -/
structure Text where
  layout : Layout
  document : Json
  deriving DecidableEq

/-! ## Identifiers -/

/-- One position of a regular expression of fixed length. -/
inductive CharClass where
  | literal (c : Char)
  | digit
  | hex
  deriving DecidableEq

def CharClass.test : CharClass → Char → Bool
  | literal c, d => c = d
  | digit, d => d.isDigit
  | hex, d => d.isDigit || ('a' ≤ d && d ≤ 'f')

/-- `re.fullmatch`. -/
def fullmatch (pattern : List CharClass) (text : String) : Bool :=
  pattern.length = text.toList.length && (pattern.zip text.toList).all fun (c, d) => c.test d

def hexDigits (n : Nat) : List CharClass := List.replicate n .hex

def decimalDigits (n : Nat) : List CharClass := List.replicate n .digit

/-- `_FULL_SHA`. -/
def fullShaRe : List CharClass := hexDigits 40

/-- `_MANIFEST_HASH_RE` and `_CONTRACT_HASH_RE`. -/
def manifestHashRe : List CharClass := hexDigits 64

/-- `_IMAGE_ID_RE`. -/
def imageIdRe : List CharClass := ("sha256:".toList.map .literal) ++ hexDigits 64

/-- `_DEPLOYMENT_ID_RE`, which every kind of journal uses for its identifiers. -/
def deploymentIdRe : List CharClass :=
  hexDigits 8 ++ [.literal '-'] ++ hexDigits 4 ++ [.literal '-'] ++ hexDigits 4 ++
    [.literal '-'] ++ hexDigits 4 ++ [.literal '-'] ++ hexDigits 12

/-- `_UTC_RE`. -/
def utcRe : List CharClass :=
  decimalDigits 4 ++ [.literal '-'] ++ decimalDigits 2 ++ [.literal '-'] ++ decimalDigits 2 ++
    [.literal 'T'] ++ decimalDigits 2 ++ [.literal ':'] ++ decimalDigits 2 ++ [.literal ':'] ++
    decimalDigits 2 ++ [.literal 'Z']

/-- `_ALEMBIC_REV_RE`. -/
def isAlembicRev (text : String) : Bool :=
  !text.toList.isEmpty && text.toList.all fun c => c.isAlphanum || c = '_'

def placeholderRevision : String := "0000000000000000000000000000000000000000"

def validateFullSha (value : String) : Except ReleaseError String :=
  let text := String.ofList (strip value.toList)
  if text ≠ placeholderRevision ∧ fullmatch fullShaRe text then
    .ok text
  else
    .error .revisionError

/-- A revision that is its own validated form. -/
def IsRevision (rev : String) : Prop := rev ≠ placeholderRevision ∧ fullmatch fullShaRe rev = true

instance (rev : String) : Decidable (IsRevision rev) := inferInstanceAs (Decidable (_ ∧ _))

theorem fullmatch_replicate {n : Nat} {k : CharClass} {text : String}
    (h : fullmatch (List.replicate n k) text = true) : ∀ c ∈ text.toList, k.test c = true := by
  intro c hc
  simp only [fullmatch, List.length_replicate, Bool.and_eq_true, decide_eq_true_eq,
    List.all_eq_true] at h
  obtain ⟨hlength, hall⟩ := h
  obtain ⟨i, hi, rfl⟩ := List.getElem_of_mem hc
  have hmem : (k, text.toList[i]) ∈ (List.replicate n k).zip text.toList := by
    refine List.mem_iff_getElem.mpr ⟨i, by simp [hlength, hi], by simp⟩
  exact hall _ hmem

theorem isSpace_of_isHex {c : Char} (h : CharClass.hex.test c = true) : isSpace c = false := by
  have hn : (48 ≤ c.toNat ∧ c.toNat ≤ 57) ∨ (97 ≤ c.toNat ∧ c.toNat ≤ 102) := by
    simp only [CharClass.test, Char.isDigit, Bool.or_eq_true, Bool.and_eq_true,
      decide_eq_true_eq, ge_iff_le, Char.le_def, UInt32.le_iff_toNat_le] at h
    exact h
  simp only [isSpace, Bool.or_eq_false_iff, Bool.and_eq_false_iff, decide_eq_false_iff_not]
  omega

theorem validateFullSha_of_isRevision {rev : String} (h : IsRevision rev) :
    validateFullSha rev = .ok rev := by
  have hstrip : String.ofList (strip rev.toList) = rev := by
    rw [strip_eq_self fun c hc => isSpace_of_isHex (fullmatch_replicate h.2 c hc)]
    exact String.ofList_toList
  simp only [validateFullSha, hstrip]
  exact if_pos h

theorem isRevision_of_validateFullSha {value rev : String} (h : validateFullSha value = .ok rev) :
    IsRevision rev := by
  simp only [validateFullSha] at h
  split at h
  · next hvalid => injection h with h; exact h ▸ hvalid
  · cases h

/-! ## Sets of Alembic revisions -/

/-- `frozenset[str]`. -/
abbrev Heads := Finset String

/-- `sorted` of a set of strings. -/
def sorted (s : Finset String) : List String :=
  Quot.liftOn s.val (List.insertionSort (· ≤ ·)) fun as bs h =>
    have hperm := (List.perm_insertionSort (· ≤ ·) as).trans
      (h.trans (List.perm_insertionSort (· ≤ ·) bs).symm)
    hperm.eq_of_pairwise (fun _ _ _ _ => le_antisymm) (List.pairwise_insertionSort _ as)
      (List.pairwise_insertionSort _ bs)

end FetchNow.Release
