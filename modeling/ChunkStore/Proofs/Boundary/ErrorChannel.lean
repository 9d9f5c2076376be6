import ChunkStore.Proofs.Boundary.Messages

/-!
# The error channel

A call either succeeds and leaves its slot alone, or it gives back its no-result value and puts a
message into the slot that tells the failure.  What is in the slot, and whether there is one, has no
influence on anything else.  Calls without a slot never fail.
-/

set_option autoImplicit false

namespace ChunkStore.Boundary

/-- Whether a call comes with an error slot. -/
def Call.hasSlot : Call → Bool
  | .closeDatabase .. | .freeDocument .. | .freeConstraints .. | .freeResults .. | .freeMetadata ..
  | .freeListing .. => false
  | .documentSize .. | .resultsSize .. | .metadataSize .. | .listingSize .. => false
  | .newConstraints .. => false
  | _ => true

/-- The types of what calls give back; a handle and a text are both pointers. -/
inductive ReturnType where
  | nothing
  | pointer
  | bool
  | number
  | score
  | float
deriving DecidableEq

namespace Returned

/-- The type of what a call gives back. -/
def type : Returned → ReturnType
  | .nothing => .nothing
  | .null | .handle | .text _ => .pointer
  | .bool _ => .bool
  | .number _ => .number
  | .score _ => .score
  | .float _ => .float

/-- What stands for no result: null, false, zero, minus one or no number. -/
inductive IsNoResult : Returned → Prop where
  | null : IsNoResult .null
  | false : IsNoResult (.bool false)
  | zero : IsNoResult (.number 0)
  | minusOne : IsNoResult (.number (-1))
  | score {x : Binary32} (hx : x.isNaN = true) : IsNoResult (.score x)
  | float {x : Binary64} (hx : x.isNaN = true) : IsNoResult (.float x)

end Returned

/-- A call that succeeds gives back something of the type of its no-result value, and never null. -/
structure Fits (call : Call) (returned : Returned) : Prop where
  type_eq : returned.type = call.noResult.type
  ne_null : returned ≠ .null

/-- What a call keeps to: how it succeeds, how it fails, that it fails if its arguments are not in
order, and that it does the same without a slot. -/
structure KeepsContract (state : State) (slot : Slot) (call : Call) : Prop where
  succeeds : ∀ returned after, perform state call = (.ok returned, after) →
    invoke state slot call = (returned, slot, after) ∧ Fits call returned
  fails : ∀ failure after, perform state call = (.error failure, after) →
    call.hasSlot = true ∧ call.noResult.IsNoResult ∧ ∃ message, Tells message failure ∧
      invoke state slot call = (call.noResult, slot.map fun _ => some message, after)
  refuses : ¬call.IsInOrder state →
    ∃ description, perform state call = (.error (.invalidArgument description), state)
  ignores : invoke state none call =
    ((invoke state slot call).1, none, (invoke state slot call).2.2)

variable {state : State} {call : Call} {returned : Returned} {failure : Failure}

theorem isNoResult_of_hasSlot (h : call.hasSlot = true) : call.noResult.IsNoResult := by
  cases call with
  | openDatabase | query | listSources | newDocument | resultMetadata | metadataKey => exact .null
  | insert | save | delete | addChunk | setVersion | setMetadata | addConstraint => exact .false
  | metadataKind => exact .minusOne
  | resultField results index field =>
    cases field with
    | id | version => exact .zero
    | text | document | docId => exact .null
    | score => exact .score (by decide)
  | metadataValue list index kind =>
    cases kind with
    | bool => exact .false
    | int => exact .zero
    | float => exact .float (by decide)
    | str => exact .null
  | sourceField listing index field =>
    cases field with
    | document | docId => exact .null
    | version => exact .zero
  | _ => exact absurd h (by simp [Call.hasSlot])

theorem settle_eq_ok {result : Except Failure State} {given : Returned}
    (h : (settle state given result).1 = .ok returned) : returned = given := by
  cases result with
  | error failure => exact absurd h (by simp [settle])
  | ok after => exact (Except.ok.inj h).symm

theorem ResultField.fits_read (results : Pointer) (index : Nat) (field : ResultField) (hit : Hit) :
    Fits (.resultField results index field) (field.read hit) := by
  cases field
  all_goals exact ⟨rfl, by simp [ResultField.read]⟩

theorem SourceField.fits_read (listing : Pointer) (index : Nat) (field : SourceField)
    (source : Source) : Fits (.sourceField listing index field) (field.read source) := by
  cases field
  all_goals exact ⟨rfl, by simp [SourceField.read]⟩

theorem fits_readValue (list : Pointer) (index : Nat) {value : Metadata.Value}
    {kind : Metadata.Kind} (h : readValue value kind = .ok returned) :
    Fits (.metadataValue list index kind) returned := by
  cases kind
  all_goals
    obtain ⟨read, -, rfl⟩ := map_eq_ok_iff.1 h
    exact ⟨rfl, by simp⟩

theorem fits_of_perform (h : (perform state call).1 = .ok returned) : Fits call returned := by
  cases call with
  | openDatabase target path =>
    unfold perform at h
    dsimp only at h
    split at h
    · exact absurd h (by simp)
    · split at h
      · exact absurd h (by simp)
      · obtain rfl := Except.ok.inj h
        exact ⟨rfl, by simp⟩
  | closeDatabase database =>
    unfold perform at h
    dsimp only at h
    split at h
    all_goals
      obtain rfl := Except.ok.inj h
      exact ⟨rfl, by simp⟩
  | insert database document =>
    obtain ⟨_, -, rfl⟩ := map_eq_ok_iff.1 h
    exact ⟨rfl, by simp⟩
  | save | delete =>
    unfold perform at h
    dsimp only at h
    split at h
    · exact absurd h (by simp)
    · exact absurd h (by simp)
    · obtain ⟨_, -, rfl⟩ := map_eq_ok_iff.1 h
      exact ⟨rfl, by simp⟩
  | query | listSources | newDocument | resultMetadata | addChunk | setVersion | setMetadata
  | addConstraint =>
    obtain rfl := settle_eq_ok h
    exact ⟨rfl, by simp⟩
  | resultField results index field =>
    obtain ⟨⟨name, found⟩, -, h⟩ := bind_eq_ok_iff.1 h
    obtain ⟨hit, -, h⟩ := bind_eq_ok_iff.1 h
    obtain rfl := Except.ok.inj h
    exact field.fits_read results index hit
  | sourceField listing index field =>
    obtain ⟨⟨name, found⟩, -, h⟩ := bind_eq_ok_iff.1 h
    obtain ⟨source, -, h⟩ := bind_eq_ok_iff.1 h
    obtain rfl := Except.ok.inj h
    exact field.fits_read listing index source
  | metadataKey | metadataKind =>
    obtain ⟨entry, -, rfl⟩ := map_eq_ok_iff.1 h
    exact ⟨rfl, by simp⟩
  | metadataValue list index kind =>
    obtain ⟨entry, -, h⟩ := bind_eq_ok_iff.1 h
    exact fits_readValue list index h
  | _ =>
    obtain rfl := Except.ok.inj h
    exact ⟨rfl, by simp [sizeOf]⟩

theorem hasSlot_of_perform (h : (perform state call).1 = .error failure) : call.hasSlot = true := by
  cases call with
  | closeDatabase database =>
    unfold perform at h
    dsimp only at h
    split at h
    all_goals exact absurd h (by simp)
  | freeDocument | freeConstraints | freeResults | freeMetadata | freeListing =>
    exact absurd h (by simp [perform])
  | documentSize | resultsSize | metadataSize | listingSize | newConstraints =>
    exact absurd h (by simp [perform])
  | _ => rfl

/-- In every state, with every slot and whatever its arguments are, a call keeps the contract. -/
theorem every_call_keeps_contract (state : State) (slot : Slot) (call : Call) :
    KeepsContract state slot call where
  succeeds := by
    intro returned after hperform
    refine ⟨?_, fits_of_perform (congrArg Prod.fst hperform)⟩
    unfold invoke
    rw [hperform]
  fails := by
    intro failure after hperform
    have hslot : call.hasSlot = true := hasSlot_of_perform (congrArg Prod.fst hperform)
    refine ⟨hslot, isNoResult_of_hasSlot hslot, errorText failure, tells_errorText failure, ?_⟩
    unfold invoke
    rw [hperform]
  refuses := perform_of_not_isInOrder
  ignores := by
    unfold invoke
    split
    · rfl
    · rfl

end ChunkStore.Boundary
