import ChunkStore.Metadata.Constraint
import ChunkStore.Proofs.Number.DoubleOrder
import ChunkStore.Proofs.Text.ByteOrder

/-!
# Comparing metadata values

Values of one kind compare as what they stand for does: truth values with false first, integers by
size, floats by their exact values with the infinities at the ends, and texts by their bytes, which
is by their code points.  So the comparison is an order wherever it is defined, a constraint asks
for one of its three results, and metadata meets constraints key by key.
-/

set_option autoImplicit false

namespace ChunkStore

/-- The results of two comparisons that do not go down compose. -/
theorem compare_eq_then {κ : Type} [Ord κ] [Std.TransOrd κ] {a b c : κ}
    (hab : compare a b ≠ .gt) (hbc : compare b c ≠ .gt) :
    compare a c = (compare a b).then (compare b c) := by
  cases hfirst : compare a b with
  | lt => exact Std.TransCmp.lt_of_lt_of_isLE hfirst (Ordering.isLE_iff_ne_gt.2 hbc)
  | eq => exact Std.TransCmp.congr_left hfirst
  | gt => exact absurd hfirst hab

/-! ### Texts -/

/-- The code points of a text. -/
def codePoints (text : String) : List Nat :=
  text.toList.map Char.toNat

theorem map_toNat_lt_iff (left right : List Char) :
    left.map Char.toNat < right.map Char.toNat ↔ left < right := by
  induction left generalizing right with
  | nil => cases right <;> simp
  | cons c left ih =>
    cases right with
    | nil => simp
    | cons d right =>
      rw [List.map_cons, List.map_cons, List.cons_lt_cons_iff, List.cons_lt_cons_iff, ih,
        Char.toNat_inj]
      rfl

theorem codePoints_lt_iff (first second : String) :
    codePoints first < codePoints second ↔ first < second :=
  map_toNat_lt_iff first.toList second.toList

theorem cmp_bytesOf (first second : String) :
    cmp (bytesOf first) (bytesOf second) = compare first second := by
  rw [← cmp_eq_compare]
  simp only [cmp, cmpUsing, bytesOf_lt_iff]

theorem cmp_codePoints (first second : String) :
    cmp (codePoints first) (codePoints second) = compare first second := by
  rw [← cmp_eq_compare]
  simp only [cmp, cmpUsing, codePoints_lt_iff]

/-! ### Floats -/

namespace Binary64

variable {x y z : Binary64}

theorem compare?_eq_some_iff {result : Ordering} :
    x.compare? y = some result ↔
      x.isNaN = false ∧ y.isNaN = false ∧ compare x.position y.position = result := by
  unfold compare?
  cases x.isNaN <;> cases y.isNaN <;> simp

theorem compare?_swap (x y : Binary64) : y.compare? x = (x.compare? y).map Ordering.swap := by
  unfold compare?
  rw [Bool.or_comm, Std.OrientedOrd.eq_swap (a := y.position)]
  split <;> rfl

end Binary64

namespace Metadata

/-! ### Values -/

namespace Value

/-- Comparing the other way round gives the reverse result, or none. -/
theorem compare?_swap (a b : Value) : b.compare? a = (a.compare? b).map Ordering.swap := by
  cases a <;> cases b
  case float.float x y => exact x.compare?_swap y
  all_goals first | rfl | exact congrArg some Std.OrientedOrd.eq_swap

/-- Comparisons that do not go down compose. -/
theorem compare?_trans {a b c : Value} {first second : Ordering} (hab : a.compare? b = some first)
    (hbc : b.compare? c = some second) (hfirst : first ≠ .gt) (hsecond : second ≠ .gt) :
    a.compare? c = some (first.then second) := by
  cases a <;> cases b <;> cases c <;> simp only [compare?, reduceCtorEq] at hab hbc
  case float.float.float x y z =>
    obtain ⟨hx, -, rfl⟩ := Binary64.compare?_eq_some_iff.1 hab
    obtain ⟨-, hz, rfl⟩ := Binary64.compare?_eq_some_iff.1 hbc
    exact Binary64.compare?_eq_some_iff.2 ⟨hx, hz, compare_eq_then hfirst hsecond⟩
  all_goals
    obtain rfl := Option.some.inj hab
    obtain rfl := Option.some.inj hbc
    exact congrArg some (compare_eq_then hfirst hsecond)

theorem compare?_str (first second : String) :
    (str first).compare? (str second) = some (cmp (bytesOf first) (bytesOf second)) ∧
    (str first).compare? (str second) = some (cmp (codePoints first) (codePoints second)) := by
  rw [cmp_bytesOf, cmp_codePoints]
  exact ⟨rfl, rfl⟩

end Value

/-! ### Constraints -/

namespace Constraint

/-- Some value admits a constraint just if it compares as the constraint's operator asks. -/
theorem admits_some_iff (constraint : Constraint) (candidate : Value) :
    constraint.admits (some candidate) = true ↔
      candidate.compare? constraint.value = some constraint.operator.ordering := by
  simp [admits]

theorem admits_none (constraint : Constraint) : constraint.admits none = false := by
  simp [admits]

end Constraint

theorem Operator.exists_unique_ordering (result : Ordering) :
    ∃! operator : Operator, operator.ordering = result := by
  cases result
  · exact ⟨.less, rfl, fun operator h => by cases operator <;> first | rfl | cases h⟩
  · exact ⟨.equal, rfl, fun operator h => by cases operator <;> first | rfl | cases h⟩
  · exact ⟨.greater, rfl, fun operator h => by cases operator <;> first | rfl | cases h⟩

/-- Of the three constraints with one value a candidate meets exactly one if it compares with the
value, and none otherwise. -/
theorem exists_unique_admits_iff (candidate value : Value) :
    ((candidate.compare? value).isSome = true →
      ∃! operator, (Constraint.mk operator value).admits (some candidate) = true) ∧
    (candidate.compare? value = none →
      ∀ operator, (Constraint.mk operator value).admits (some candidate) = false) := by
  simp only [Constraint.admits_some_iff, ← Bool.not_eq_true]
  constructor
  · intro hdefined
    obtain ⟨result, hresult⟩ := Option.isSome_iff_exists.1 hdefined
    simpa [hresult, eq_comm] using Operator.exists_unique_ordering result
  · rintro hnone operator
    simp [hnone]

end Metadata

/-! ### All constraints of a query -/

namespace Metadata

variable {metadata : Metadata} {constraints : Constraints}

theorem satisfies_iff :
    metadata.satisfies constraints = true ↔
      ∀ key constraint, constraints.find? key = some constraint →
        constraint.admits (metadata.find? key) = true := by
  unfold satisfies
  rw [List.all_eq_true]
  constructor
  · intro hall key constraint hfind
    exact hall (key, constraint) (Dict.mem_toList.2 hfind)
  · rintro hall ⟨key, constraint⟩ hmem
    exact hall key constraint (Dict.mem_toList.1 hmem)

/-- The constraints may be looked at in any order. -/
theorem satisfies_eq_all_of_perm {order : List (String × Constraint)}
    (h : order.Perm constraints.toList) :
    metadata.satisfies constraints =
      order.all fun entry => entry.2.admits (metadata.find? entry.1) := by
  rw [h.all_eq]
  rfl

/-- Metadata that meets constraints meets any choice of them. -/
theorem satisfies_of_subset {fewer : Constraints}
    (hsubset : ∀ key constraint, fewer.find? key = some constraint →
      constraints.find? key = some constraint)
    (h : metadata.satisfies constraints = true) : metadata.satisfies fewer = true :=
  satisfies_iff.2 fun key constraint hfind =>
    satisfies_iff.1 h key constraint (hsubset key constraint hfind)

/-- The comparison is an order where it is defined, each kind's own; it decides which constraints a
candidate meets, and metadata meets constraints just if it meets each one. -/
theorem comparison_orders_and_selects :
    (∀ a b : Value,
      (a.compare? b).isSome = true ↔ a.kind = b.kind ∧ a.isNaN = false ∧ b.isNaN = false) ∧
    (∀ a b : Value, b.compare? a = (a.compare? b).map Ordering.swap) ∧
    (∀ (a b c : Value) (first second : Ordering), a.compare? b = some first →
      b.compare? c = some second → first ≠ .gt → second ≠ .gt →
        a.compare? c = some (first.then second)) ∧
    (∀ p q : Bool, (Value.bool p).compare? (.bool q) = some (cmp p q)) ∧
    (∀ m n : Int64, (Value.int m).compare? (.int n) = some (cmp m.toInt n.toInt)) ∧
    (∀ x y : Binary64, x.isNaN = false → y.isNaN = false →
      (Value.float x).compare? (.float y) = some (cmp x.standsFor y.standsFor)) ∧
    (Value.float (Binary64.zero true)).compare? (.float (Binary64.zero false)) = some .eq ∧
    (∀ s t : String,
      (Value.str s).compare? (.str t) = some (cmp (bytesOf s) (bytesOf t)) ∧
      (Value.str s).compare? (.str t) = some (cmp (codePoints s) (codePoints t))) ∧
    (∀ candidate value : Value,
      ((candidate.compare? value).isSome = true →
        ∃! operator, (Constraint.mk operator value).admits (some candidate) = true) ∧
      (candidate.compare? value = none →
        ∀ operator, (Constraint.mk operator value).admits (some candidate) = false)) ∧
    (∀ (constraint : Constraint) (candidate : Value),
      constraint.admits (some candidate) = true ↔
        candidate.compare? constraint.value = some constraint.operator.ordering) ∧
    (∀ constraint : Constraint, constraint.admits none = false) ∧
    ∀ (metadata : Metadata) (constraints : Constraints),
      (metadata.satisfies constraints = true ↔
        ∀ key constraint, constraints.find? key = some constraint →
          constraint.admits (metadata.find? key) = true) ∧
      (∀ order : List (String × Constraint), order.Perm constraints.toList →
        metadata.satisfies constraints =
          order.all fun entry => entry.2.admits (metadata.find? entry.1)) ∧
      ∀ fewer : Constraints,
        (∀ key constraint, fewer.find? key = some constraint →
          constraints.find? key = some constraint) →
        metadata.satisfies constraints = true → metadata.satisfies fewer = true := by
  refine ⟨Value.compare?_isSome_iff, Value.compare?_swap, ?_, ?_, ?_, ?_, by decide +kernel,
    Value.compare?_str, exists_unique_admits_iff, Constraint.admits_some_iff,
    Constraint.admits_none, ?_⟩
  · intro a b c first second
    exact Value.compare?_trans
  · intro p q
    exact congrArg some (cmp_eq_compare p q).symm
  · intro m n
    exact congrArg some (cmp_eq_compare m.toInt n.toInt).symm
  · intro x y hx hy
    exact Binary64.compare?_eq_cmp_standsFor hx hy
  · intro metadata constraints
    exact ⟨satisfies_iff, fun order => satisfies_eq_all_of_perm,
      fun fewer => satisfies_of_subset⟩

end Metadata

end ChunkStore
