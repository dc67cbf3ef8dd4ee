import FetchNow.Text.Unicode
import Mathlib.Data.Rat.Init
import Mathlib.Data.List.Basic

/-!
# Decoded documents

What `json.loads` makes of bytes, and the walk that bounds the structure of a document before
anything in it is read.
-/
namespace FetchNow

inductive PyFloat where
  | finite (value : ℚ)
  | inf (negative : Bool)
  | nan
  deriving DecidableEq, Repr

namespace Text

/-- A decoded value; no key of an object repeats. -/
inductive Json where
  | null
  | bool (value : Bool)
  | int (value : ℤ)
  | float (value : PyFloat)
  | str (value : Str)
  | arr (items : List Json)
  | obj (fields : List (Str × Json))

abbrev Json.Fields := List (Str × Json)

/-- What decoding raises. -/
inductive LoadError where
  | unicodeDecodeError
  | jsonDecodeError
  | valueError
  | recursionError
  deriving DecidableEq

/-- The interpreter: its tables, `json.loads` of decoded bytes, `float` of a text (nothing stands
for its `ValueError`) and `str` of a value that is no text. -/
structure Interpreter where
  tables : Unicode
  loads : List UInt8 → Except LoadError Json
  float : Str → Option PyFloat
  repr : Json → Str

namespace Json

/-- `d.get(key)`, where `None` stands for a key that is absent. -/
def get (fields : Fields) (key : String) : Json := (fields.lookup (codePoints key)).getD .null

/-! ## Limits -/

/-- The bounds of a walk, the depth at which it begins, and how deep its calls may be nested. -/
structure Limits where
  rootDepth : ℕ
  maxDepth : ℕ
  maxNodes : ℕ
  maxMappingKeys : ℕ
  maxListLen : ℕ
  maxStringLen : ℕ
  maxKeyLen : Option ℕ
  recursionLimit : Option ℕ

/-- Why a walk ends. -/
inductive Excess where
  | nodes
  | depth
  | string
  | mapping
  | list
  | key
  | nonfinite
  | recursion
  deriving DecidableEq, Repr

variable (limits : Limits)

def check (c : Prop) [Decidable c] (excess : Excess) : Except Excess Unit :=
  if c then .ok () else .error excess

mutual

/-- The nodes counted so far, with those of a value. -/
def walk : Json → ℕ → ℕ → Except Excess ℕ
  | value, depth, nodes => do
    check (∀ limit ∈ limits.recursionLimit, depth < limit) .recursion
    check (nodes + 1 ≤ limits.maxNodes) .nodes
    check (depth ≤ limits.maxDepth) .depth
    match value with
    | str value => do
      check (value.length ≤ limits.maxStringLen) .string
      .ok (nodes + 1)
    | obj fields => do
      check (fields.length ≤ limits.maxMappingKeys) .mapping
      walkFields fields (depth + 1) (nodes + 1)
    | arr items => do
      check (items.length ≤ limits.maxListLen) .list
      walkItems items (depth + 1) (nodes + 1)
    | float (.finite _) => .ok (nodes + 1)
    | float _ => .error .nonfinite
    | null => .ok (nodes + 1)
    | bool _ => .ok (nodes + 1)
    | int _ => .ok (nodes + 1)

def walkItems : List Json → ℕ → ℕ → Except Excess ℕ
  | [], _, nodes => .ok nodes
  | item :: items, depth, nodes => do
    let nodes ← walk item depth nodes
    walkItems items depth nodes

def walkFields : Fields → ℕ → ℕ → Except Excess ℕ
  | [], _, nodes => .ok nodes
  | (key, value) :: fields, depth, nodes => do
    check (∀ bound ∈ limits.maxKeyLen, key.length ≤ bound) .key
    let nodes ← walk value depth nodes
    walkFields fields depth nodes

end

/-! ## What the limits say -/

mutual

def nodeCount : Json → ℕ
  | arr items => itemCount items + 1
  | obj fields => fieldCount fields + 1
  | _ => 1

def itemCount : List Json → ℕ
  | [] => 0
  | item :: items => nodeCount item + itemCount items

def fieldCount : Fields → ℕ
  | [] => 0
  | (_, value) :: fields => nodeCount value + fieldCount fields

end

/-- A value occurs in a document at a depth. -/
inductive At : Json → ℕ → Json → Prop where
  | root {value : Json} : At value 0 value
  | item {items : List Json} {item value : Json} {depth : ℕ} (h : item ∈ items)
      (hvalue : At item depth value) : At (arr items) (depth + 1) value
  | field {fields : Fields} {key : Str} {field value : Json} {depth : ℕ}
      (h : (key, field) ∈ fields) (hvalue : At field depth value) :
      At (obj fields) (depth + 1) value

/-- What the limits ask of a single value. -/
def Fits : Json → Prop
  | str value => value.length ≤ limits.maxStringLen
  | obj fields => fields.length ≤ limits.maxMappingKeys ∧
      ∀ field ∈ fields, ∀ bound ∈ limits.maxKeyLen, field.1.length ≤ bound
  | arr items => items.length ≤ limits.maxListLen
  | float value => ∃ q, value = .finite q
  | _ => True

/-- The limits on a depth. -/
def DepthOk (depth : ℕ) : Prop :=
  depth ≤ limits.maxDepth ∧ ∀ limit ∈ limits.recursionLimit, depth < limit

structure WithinLimits (root : Json) : Prop where
  nodes : root.nodeCount ≤ limits.maxNodes
  each : ∀ depth value, At root depth value →
    DepthOk limits (limits.rootDepth + depth) ∧ Fits limits value

variable {limits} {value : Json} {items : List Json} {fields : Fields} {depth nodes n : ℕ}

/-- The induction over values and what is in them. -/
theorem induction {motive : Json → Prop}
    (leaf : ∀ value, (∀ items, value ≠ arr items) → (∀ fields, value ≠ obj fields) → motive value)
    (array : ∀ items, (∀ item ∈ items, motive item) → motive (arr items))
    (object : ∀ fields, (∀ field ∈ fields, motive field.2) → motive (obj fields)) :
    ∀ value, motive value
  | null => leaf _ nofun nofun
  | bool _ => leaf _ nofun nofun
  | int _ => leaf _ nofun nofun
  | float _ => leaf _ nofun nofun
  | str _ => leaf _ nofun nofun
  | arr items => array items fun item _ => induction leaf array object item
  | obj fields => object fields fun field _ => induction leaf array object field.2
termination_by value => sizeOf value
decreasing_by
  all_goals simp_wf
  · rename_i h
    have := List.sizeOf_lt_of_mem h
    omega
  · rename_i h
    have hlt := List.sizeOf_lt_of_mem h
    cases field
    simp at hlt ⊢
    omega

theorem bind_eq_ok {α β : Type} {x : Except Excess α} {f : α → Except Excess β} {b : β} :
    (x >>= f) = .ok b ↔ ∃ a, x = .ok a ∧ f a = .ok b := by
  cases x with
  | error e => exact iff_of_false nofun fun ⟨_, h, _⟩ => by cases h
  | ok a => exact ⟨fun h => ⟨a, rfl, h⟩, fun ⟨_, rfl, h⟩ => h⟩

theorem check_bind_eq_ok {c : Prop} [Decidable c] {excess : Excess} {β : Type}
    {f : Unit → Except Excess β} {b : β} :
    (check c excess >>= f) = .ok b ↔ c ∧ f () = .ok b := by
  rw [bind_eq_ok, check]
  by_cases hc : c
  · rw [if_pos hc]
    exact ⟨fun ⟨_, _, h⟩ => ⟨hc, h⟩, fun h => ⟨(), rfl, h.2⟩⟩
  · rw [if_neg hc]
    exact iff_of_false (fun ⟨_, h, _⟩ => by cases h) fun h => hc h.1

/-! ## The walk and the limits -/

/-- Every value that occurs is in bounds, the value itself at the depth. -/
def EachOk (limits : Limits) (depth : ℕ) (value : Json) : Prop :=
  ∀ below other, At value below other → DepthOk limits (depth + below) ∧ Fits limits other

/-- What a walk of a value says. -/
def WalkSpec (limits : Limits) (value : Json) : Prop :=
  ∀ depth nodes n, walk limits value depth nodes = .ok n ↔
    n = nodes + value.nodeCount ∧ n ≤ limits.maxNodes ∧ EachOk limits depth value

theorem walkItems_eq_ok (hitems : ∀ item ∈ items, WalkSpec limits item)
    (hnodes : nodes ≤ limits.maxNodes) : walkItems limits items depth nodes = .ok n ↔
      n = nodes + itemCount items ∧ n ≤ limits.maxNodes ∧
        ∀ item ∈ items, EachOk limits depth item := by
  induction items generalizing nodes with
  | nil =>
    rw [walkItems, itemCount, Nat.add_zero, Except.ok.injEq]
    refine ⟨fun h => ⟨h.symm, h ▸ hnodes, fun _ hitem => absurd hitem List.not_mem_nil⟩,
      fun h => h.1.symm⟩
  | cons item items ih =>
    have hitem := hitems item List.mem_cons_self
    have hrest := fun item hitem => hitems item (List.mem_cons_of_mem _ hitem)
    rw [walkItems, bind_eq_ok, itemCount, List.forall_mem_cons]
    constructor
    · rintro ⟨a, ha, hn⟩
      obtain ⟨rfl, hbound, hfirst⟩ := (hitem depth nodes a).mp ha
      obtain ⟨rfl, hn, hall⟩ := (ih hrest hbound).mp hn
      exact ⟨by omega, hn, hfirst, hall⟩
    · rintro ⟨rfl, hn, hfirst, hall⟩
      have ha := (hitem depth nodes _).mpr ⟨rfl, by omega, hfirst⟩
      exact ⟨_, ha, (ih hrest (by omega)).mpr ⟨by omega, by omega, hall⟩⟩

theorem walkFields_eq_ok (hfields : ∀ field ∈ fields, WalkSpec limits field.2)
    (hnodes : nodes ≤ limits.maxNodes) : walkFields limits fields depth nodes = .ok n ↔
      n = nodes + fieldCount fields ∧ n ≤ limits.maxNodes ∧ ∀ field ∈ fields,
        (∀ bound ∈ limits.maxKeyLen, field.1.length ≤ bound) ∧ EachOk limits depth field.2 := by
  induction fields generalizing nodes with
  | nil =>
    rw [walkFields, fieldCount, Nat.add_zero, Except.ok.injEq]
    refine ⟨fun h => ⟨h.symm, h ▸ hnodes, fun _ hfield => absurd hfield List.not_mem_nil⟩,
      fun h => h.1.symm⟩
  | cons field fields ih =>
    obtain ⟨key, value⟩ := field
    have hvalue : WalkSpec limits value := hfields (key, value) List.mem_cons_self
    have hrest := fun field hfield => hfields field (List.mem_cons_of_mem _ hfield)
    rw [walkFields, check_bind_eq_ok, bind_eq_ok, fieldCount, List.forall_mem_cons]
    constructor
    · rintro ⟨hkey, a, ha, hn⟩
      obtain ⟨rfl, hbound, hfirst⟩ := (hvalue depth nodes a).mp ha
      obtain ⟨rfl, hn, hall⟩ := (ih hrest hbound).mp hn
      exact ⟨by omega, hn, ⟨hkey, hfirst⟩, hall⟩
    · rintro ⟨rfl, hn, ⟨hkey, hfirst⟩, hall⟩
      have ha := (hvalue depth nodes _).mpr ⟨rfl, by omega, hfirst⟩
      exact ⟨hkey, _, ha, (ih hrest (by omega)).mpr ⟨by omega, by omega, hall⟩⟩

theorem eachOk_leaf (harr : ∀ items, value ≠ arr items) (hobj : ∀ fields, value ≠ obj fields) :
    EachOk limits depth value ↔ DepthOk limits depth ∧ Fits limits value := by
  constructor
  · exact fun h => h 0 value .root
  · rintro h below other hat
    cases hat with
    | root => exact h
    | item => exact absurd rfl (harr _)
    | field => exact absurd rfl (hobj _)

theorem eachOk_arr : EachOk limits depth (arr items) ↔
    DepthOk limits depth ∧ Fits limits (arr items) ∧
      ∀ item ∈ items, EachOk limits (depth + 1) item := by
  constructor
  · intro h
    have hroot := h 0 _ .root
    refine ⟨hroot.1, hroot.2, fun item hitem below other hat => ?_⟩
    have hbelow := h (below + 1) other (.item hitem hat)
    rwa [← Nat.add_assoc, Nat.add_right_comm] at hbelow
  · rintro ⟨hdepth, hfits, hitems⟩ below other hat
    cases hat with
    | root => exact ⟨hdepth, hfits⟩
    | item hitem hat =>
      have hbelow := hitems _ hitem _ _ hat
      rwa [Nat.add_right_comm, Nat.add_assoc] at hbelow

theorem eachOk_obj : EachOk limits depth (obj fields) ↔
    DepthOk limits depth ∧ Fits limits (obj fields) ∧
      ∀ field ∈ fields, EachOk limits (depth + 1) field.2 := by
  constructor
  · intro h
    have hroot := h 0 _ .root
    refine ⟨hroot.1, hroot.2, fun field hfield below other hat => ?_⟩
    have hbelow := h (below + 1) other (.field hfield hat)
    rwa [← Nat.add_assoc, Nat.add_right_comm] at hbelow
  · rintro ⟨hdepth, hfits, hfields⟩ below other hat
    cases hat with
    | root => exact ⟨hdepth, hfits⟩
    | field hfield hat =>
      have hbelow := hfields _ hfield _ _ hat
      rwa [Nat.add_right_comm, Nat.add_assoc] at hbelow

theorem nodeCount_leaf (harr : ∀ items, value ≠ arr items) (hobj : ∀ fields, value ≠ obj fields) :
    value.nodeCount = 1 := by
  cases value with
  | arr items => exact absurd rfl (harr items)
  | obj fields => exact absurd rfl (hobj fields)
  | _ => rfl

theorem walk_eq_ok (value : Json) : WalkSpec limits value := by
  induction value using induction with
  | leaf value harr hobj =>
    intro depth nodes n
    rw [eachOk_leaf harr hobj, DepthOk, nodeCount_leaf harr hobj]
    rw [walk.eq_def, check_bind_eq_ok, check_bind_eq_ok, check_bind_eq_ok]
    cases value with
    | arr items => exact absurd rfl (harr items)
    | obj fields => exact absurd rfl (hobj fields)
    | str value =>
      dsimp only
      rw [check_bind_eq_ok, Fits, Except.ok.injEq]
      constructor
      · rintro ⟨hlimit, hnodes, hdepth, hlength, rfl⟩
        exact ⟨rfl, hnodes, ⟨hdepth, hlimit⟩, hlength⟩
      · rintro ⟨rfl, hnodes, ⟨hdepth, hlimit⟩, hlength⟩
        exact ⟨hlimit, hnodes, hdepth, hlength, rfl⟩
    | float value =>
      cases value with
      | finite q =>
        constructor
        · rintro ⟨hlimit, hnodes, hdepth, ⟨⟩⟩
          exact ⟨rfl, hnodes, ⟨hdepth, hlimit⟩, q, rfl⟩
        · rintro ⟨rfl, hnodes, ⟨hdepth, hlimit⟩, -⟩
          exact ⟨hlimit, hnodes, hdepth, rfl⟩
      | inf negative =>
        refine iff_of_false (fun h => by cases h.2.2.2) fun h => ?_
        obtain ⟨-, -, -, q, hq⟩ := h
        cases hq
      | nan =>
        refine iff_of_false (fun h => by cases h.2.2.2) fun h => ?_
        obtain ⟨-, -, -, q, hq⟩ := h
        cases hq
    | _ =>
      constructor
      · rintro ⟨hlimit, hnodes, hdepth, ⟨⟩⟩
        exact ⟨rfl, hnodes, ⟨hdepth, hlimit⟩, trivial⟩
      · rintro ⟨rfl, hnodes, ⟨hdepth, hlimit⟩, -⟩
        exact ⟨hlimit, hnodes, hdepth, rfl⟩
  | array items ih =>
    intro depth nodes n
    rw [walk, check_bind_eq_ok, check_bind_eq_ok, check_bind_eq_ok, check_bind_eq_ok, nodeCount,
      eachOk_arr, DepthOk, Fits]
    constructor
    · rintro ⟨hlimit, hnodes, hdepth, hlength, hwalk⟩
      obtain ⟨rfl, hn, hall⟩ := (walkItems_eq_ok ih hnodes).mp hwalk
      exact ⟨by omega, hn, ⟨hdepth, hlimit⟩, hlength, hall⟩
    · rintro ⟨rfl, hn, ⟨hdepth, hlimit⟩, hlength, hall⟩
      exact ⟨hlimit, by omega, hdepth, hlength,
        (walkItems_eq_ok ih (by omega)).mpr ⟨by omega, hn, hall⟩⟩
  | object fields ih =>
    intro depth nodes n
    rw [walk, check_bind_eq_ok, check_bind_eq_ok, check_bind_eq_ok, check_bind_eq_ok, nodeCount,
      eachOk_obj, DepthOk, Fits]
    constructor
    · rintro ⟨hlimit, hnodes, hdepth, hlength, hwalk⟩
      obtain ⟨rfl, hn, hall⟩ := (walkFields_eq_ok ih hnodes).mp hwalk
      exact ⟨by omega, hn, ⟨hdepth, hlimit⟩, ⟨hlength, fun field hfield => (hall field hfield).1⟩,
        fun field hfield => (hall field hfield).2⟩
    · rintro ⟨rfl, hn, ⟨hdepth, hlimit⟩, ⟨hlength, hkeys⟩, hall⟩
      exact ⟨hlimit, by omega, hdepth, hlength, (walkFields_eq_ok ih (by omega)).mpr
        ⟨by omega, hn, fun field hfield => ⟨hkeys field hfield, hall field hfield⟩⟩⟩

/-- A walk from the root goes through if and only if the document is within its limits. -/
theorem walk_root_eq_ok {root : Json} :
    (∃ n, walk limits root limits.rootDepth 0 = .ok n) ↔ WithinLimits limits root := by
  constructor
  · rintro ⟨n, hn⟩
    obtain ⟨rfl, hnodes, heach⟩ := (walk_eq_ok root _ _ _).mp hn
    exact ⟨by omega, heach⟩
  · rintro ⟨hnodes, heach⟩
    exact ⟨_, (walk_eq_ok root _ _ _).mpr ⟨rfl, by omega, heach⟩⟩

end Json

end Text

end FetchNow
