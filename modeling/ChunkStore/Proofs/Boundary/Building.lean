import ChunkStore.Proofs.Boundary.Consumption
import ChunkStore.Proofs.Document.Edits

/-!
# What is built at the boundary

A caller builds documents and constraint sets by calls, of which some fail.  Each call that succeeds
asks for an edit of a document or for a constraint at a key, with the texts that were handed over.
Whatever else is called, a document that was not inserted yet reflects its edits, a constraint set
has for each key the constraint that was added last, and calls that failed have left no trace.
-/

set_option autoImplicit false

namespace ChunkStore.Boundary

open CString

/-- The edit that a call asks for. -/
inductive Call.AsksFor : Call → Document.Edit → Prop
  | addChunk {document : Pointer} {raw : RawText} {text : String}
      (htext : (ofRaw raw).Spells text) : AsksFor (.addChunk document raw) (.addChunk text)
  | setVersion (document : Pointer) (version : UInt32) :
      AsksFor (.setVersion document version) (.setVersion version)
  | setMetadata {document : Pointer} {index : Nat} {raw : RawText} {key : String}
      {value : RawValue} {read : Metadata.Value} (hkey : (ofRaw raw).Spells key)
      (hvalue : IsValue read value.sent) :
      AsksFor (.setMetadata document index raw value) (.setMetadata index key read)

/-- Whether a call is to add to the constraint set of a name. -/
def Call.constrains (name : String) : Call → Bool
  | .addConstraint constraints _ _ _ => constraints == some name
  | _ => false

/-- Whether a call releases the constraint set of a name or puts another one in its place. -/
def Call.dropsConstraints (name : String) : Call → Bool
  | .freeConstraints constraints => constraints == some name
  | .newConstraints target => target == name
  | _ => false

/-- The constraint that a call asks for, with its key. -/
inductive Call.AsksForConstraint : Call → String × Metadata.Constraint → Prop
  | addConstraint {constraints : Pointer} {raw : RawText} {key : String}
      {operator : Metadata.Operator} {value : RawValue} {read : Metadata.Value}
      (hkey : (ofRaw raw).Spells key) (hvalue : IsValue read value.sent) :
      AsksForConstraint (.addConstraint constraints raw operator.code value)
        (key, ⟨operator, read⟩)

/-- Whether a step is to add to the constraint set of a name and succeeds. -/
def Step.constrained (name : String) (step : Step) : Bool :=
  step.call.constrains name && step.outcome.isOk

/-- A constraint set has for each key what was added last, and otherwise what it had before. -/
def ReflectsAdded (before : Constraints) (added : List (String × Metadata.Constraint))
    (after : Constraints) : Prop :=
  ∀ key, after.find? key =
    (lastOf? (fun entry => if entry.1 = key then some entry.2 else none) added).or
      (before.find? key)

/-- A call fails. -/
def Fails (state : State) (call : Call) : Prop :=
  ∃ failure, (perform state call).1 = .error failure

/-- The document of a name is what the calls that succeeded have made of a draft, and a call on it
that fails changes nothing. -/
structure MadeOf (name : String) (draft : Document) (trace : List Step) (state : State)
    (document : Document) (edits : List Document.Edit) : Prop where
  held : state.documents.find? name = some (some document)
  asked : List.Forall₂ Call.AsksFor ((trace.filter (Step.built name)).map Step.call) edits
  reflects : draft.Reflects edits document
  size : perform state (.documentSize (some name)) = (.ok (.number document.size), state)
  fails_iff : ∀ index key value, Fails state (.setMetadata (some name) index key value) ↔
    document.size ≤ index ∨ ∃ raw ∈ key :: value.texts, ¬IsText raw
  unharmed : ∀ call, call.buildsOn name = true → Fails state call → (perform state call).2 = state

/-- The constraint set of a name is what the calls that succeeded have added to a set, and a call on
it that fails changes nothing. -/
structure AddedUp (name : String) (before : Constraints) (trace : List Step) (state : State)
    (set : Constraints) (added : List (String × Metadata.Constraint)) : Prop where
  held : state.constraintSets.find? name = some set
  asked : List.Forall₂ Call.AsksForConstraint
    ((trace.filter (Step.constrained name)).map Step.call) added
  reflects : ReflectsAdded before added set
  fails_iff : ∀ key code value, Fails state (.addConstraint (some name) key code value) ↔
    (∀ operator : Metadata.Operator, code ≠ operator.code) ∨
      ∃ raw ∈ key :: value.texts, ¬IsText raw
  unharmed : ∀ call, call.constrains name = true → Fails state call →
    (perform state call).2 = state

variable {state : State} {name : String} {call : Call} {trace : List Step}

/-! ### Calls that fail -/

theorem snd_settle_of_error {result : Except Failure State} {returned : Returned}
    {failure : Failure} (h : (settle state returned result).1 = .error failure) :
    (settle state returned result).2 = state := by
  rw [settle_eq_error_iff.1 h]
  rfl

theorem Checks.exists_eq_ok_iff {α : Type} {condition : Prop} {result : Except Failure α}
    (h : Checks condition result) : (∃ value, result = .ok value) ↔ condition := by
  rcases h with ⟨value, rfl, hcondition⟩ | ⟨⟨description, rfl⟩, hnot⟩
  · exact iff_of_true ⟨value, rfl⟩ hcondition
  · refine iff_of_false ?_ hnot
    rintro ⟨value, hvalue⟩
    exact absurd hvalue (by simp)

/-- Two checks made in turn. -/
theorem Checks.bind {α β : Type} {condition condition' : Prop} {first : Except Failure α}
    {next : α → Except Failure β} (h : Checks condition first)
    (h' : ∀ value, Checks condition' (next value)) :
    Checks (condition ∧ condition') (first >>= next) := by
  rcases h with ⟨value, rfl, hfirst⟩ | ⟨hrefused, hnot⟩
  · rcases h' value with ⟨result, hresult, hsecond⟩ | ⟨hrefused, hnot⟩
    · exact .inl ⟨result, hresult, hfirst, hsecond⟩
    · exact .inr ⟨hrefused, fun hand => hnot hand.2⟩
  · exact .inr ⟨hrefused.bind next, fun hand => hnot hand.1⟩

theorem Checks.map {α β : Type} {condition : Prop} {result : Except Failure α}
    (h : Checks condition result) (f : α → β) :
    Checks condition (result >>= fun value => pure (f value)) := by
  rcases h with ⟨value, rfl, hcondition⟩ | ⟨hrefused, hnot⟩
  · exact .inl ⟨f value, rfl, hcondition⟩
  · exact .inr ⟨hrefused.bind _, hnot⟩

theorem not_exists_eq_error_iff {α : Type} {result : Except Failure α} :
    (¬∃ failure, result = .error failure) ↔ ∃ value, result = .ok value := by
  cases result <;> simp

theorem fails_settle_iff {result : Except Failure State} {returned : Returned} :
    (∃ failure, (settle state returned result).1 = .error failure) ↔
      ∃ failure, result = .error failure := by
  simp only [settle_eq_error_iff]

/-! ### Documents -/

section

variable {draft document changed : Document} {edits : List Document.Edit}

/-- What a call builds is the edit that it asks for. -/
theorem Call.exists_edit_of_build (hbuilds : call.buildsOn name = true)
    (h : call.build document = .ok changed) :
    ∃ edit, call.AsksFor edit ∧ document.edit edit = .ok changed := by
  cases call with
  | addChunk pointer raw =>
    obtain ⟨text, hread, hchanged⟩ := bind_eq_ok_iff.1 h
    exact ⟨_, .addChunk (spells_of_readText hread), hchanged⟩
  | setVersion pointer version => exact ⟨_, .setVersion pointer version, h⟩
  | setMetadata pointer index raw value =>
    obtain ⟨key, hread, h⟩ := bind_eq_ok_iff.1 h
    obtain ⟨read, hvalue, hset⟩ := bind_eq_ok_iff.1 h
    exact ⟨_, .setMetadata (spells_of_readText hread) (isValue_of_read hvalue), hset⟩
  | _ => exact absurd hbuilds (by simp [Call.buildsOn])

/-- Calls that build on a document one after another. -/
theorem exists_edits_of_foldlM {calls : List Call}
    (hbuilds : ∀ call ∈ calls, call.buildsOn name = true)
    (h : calls.foldlM Call.build draft = .ok document) :
    ∃ edits, List.Forall₂ Call.AsksFor calls edits ∧ draft.Reflects edits document := by
  induction calls generalizing draft with
  | nil =>
    obtain rfl := Except.ok.inj h
    exact ⟨[], .nil, .refl draft⟩
  | cons call calls ih =>
    rw [List.foldlM_cons] at h
    obtain ⟨changed, hchanged, h⟩ := bind_eq_ok_iff.1 h
    obtain ⟨hcall, hcalls⟩ := List.forall_mem_cons.1 hbuilds
    obtain ⟨edit, hasks, hedit⟩ := call.exists_edit_of_build hcall hchanged
    obtain ⟨edits, hasked, hreflects⟩ := ih hcalls h
    exact ⟨edit :: edits, .cons hasks hasked,
      (Document.reflects_of_edit hedit).trans hreflects⟩

theorem Underway.fails_iff (h : Underway state name document)
    (hbuilds : call.buildsOn name = true) :
    Fails state call ↔ ∃ failure, call.build document = .error failure := by
  unfold Fails
  rw [h.builds call hbuilds]
  cases call.build document <;> simp [settle, Except.map]

theorem Underway.unharmed (h : Underway state name document)
    (hbuilds : call.buildsOn name = true) (hfails : Fails state call) :
    (perform state call).2 = state := by
  obtain ⟨failure, hbuild⟩ := (h.fails_iff hbuilds).1 hfails
  rw [h.builds call hbuilds, hbuild]
  rfl

/-- A value is set unless the chunk is not there or an argument is no text. -/
theorem Underway.fails_setMetadata_iff (h : Underway state name document) (index : Nat)
    (key : RawText) (value : RawValue) :
    Fails state (.setMetadata (some name) index key value) ↔
      document.size ≤ index ∨ ∃ raw ∈ key :: value.texts, ¬IsText raw := by
  rw [h.fails_iff (beq_self_eq_true _), ← not_iff_not, not_exists_eq_error_iff]
  have hset (keyText : String) (read : Metadata.Value) :
      (∃ changed, document.setMetadata index keyText read = .ok changed) ↔
        index < document.size := by
    simp [Document.setMetadata_eq_ok_iff]
  have hkey := (checks_readText "metadata key" key).exists_eq_ok_iff
  have hvalue := (checks_readValue "metadata value" value).exists_eq_ok_iff
  constructor
  · rintro ⟨changed, hbuild⟩
    obtain ⟨keyText, hkeyText, hbuild⟩ := bind_eq_ok_iff.1 hbuild
    obtain ⟨read, hread, hbuild⟩ := bind_eq_ok_iff.1 hbuild
    have hindex := (hset keyText read).1 ⟨changed, hbuild⟩
    rintro (hle | ⟨raw, hmem, hraw⟩)
    · exact absurd hindex (Nat.not_lt.2 hle)
    · exact hraw (List.forall_mem_cons.2 ⟨hkey.1 ⟨_, hkeyText⟩, hvalue.1 ⟨_, hread⟩⟩ raw hmem)
  · intro hnot
    obtain ⟨hindex, htexts⟩ := not_or.1 hnot
    have hall : ∀ raw ∈ key :: value.texts, IsText raw := by
      intro raw hmem
      by_contra hraw
      exact htexts ⟨raw, hmem, hraw⟩
    obtain ⟨hkeyText, hvalueTexts⟩ := List.forall_mem_cons.1 hall
    obtain ⟨keyText, hkeyText⟩ := hkey.2 hkeyText
    obtain ⟨read, hread⟩ := hvalue.2 hvalueTexts
    obtain ⟨changed, hchanged⟩ := (hset keyText read).2 (Nat.lt_of_not_le hindex)
    exact ⟨changed, bind_eq_ok_iff.2 ⟨keyText, hkeyText, bind_eq_ok_iff.2 ⟨read, hread, hchanged⟩⟩⟩

/-- A document that stays and is not inserted is made of what the calls that succeeded asked for. -/
theorem Run.madeOf {start : State} {ledger : Ledger} (hrun : Run start trace ledger state)
    (hdraft : start.documents.find? name = some (some draft))
    (hstays : ∀ step ∈ trace, step.call.drops name = false ∧ step.reaches name = false) :
    ∃ document edits, MadeOf name draft trace state document edits := by
  cases hrun.standing hdraft fun step hstep => (hstays step hstep).1 with
  | underway document _ hbuilt hunderway _ =>
    have hbuilds : ∀ call ∈ (trace.filter (Step.built name)).map Step.call,
        call.buildsOn name = true := by
      intro call hcall
      obtain ⟨step, hstep, rfl⟩ := List.mem_map.1 hcall
      exact (Bool.and_eq_true_iff.1 (List.mem_filter.1 hstep).2).1
    obtain ⟨edits, hasked, hreflects⟩ := exists_edits_of_foldlM hbuilds hbuilt
    exact ⟨document, edits, hunderway.held, hasked, hreflects, hunderway.size,
      hunderway.fails_setMetadata_iff, fun _ hcall => hunderway.unharmed hcall⟩
  | spent earlier later step document htrace _ hreaches =>
    have hmem : step ∈ trace := by
      rw [htrace]
      exact List.mem_append_right earlier List.mem_cons_self
    exact absurd hreaches (by simp [(hstays step hmem).2])

end

/-! ### Constraint sets -/

section

variable {set before : Constraints} {added : List (String × Metadata.Constraint)}

theorem reflectsAdded_refl (set : Constraints) : ReflectsAdded set [] set :=
  fun _ => rfl

theorem ReflectsAdded.insert (h : ReflectsAdded before added set) (key : String)
    (constraint : Metadata.Constraint) :
    ReflectsAdded before (added ++ [(key, constraint)]) (set.insert key constraint) := by
  intro other
  rw [Dict.find?_insert, lastOf?_append, lastOf?_singleton, h other]
  by_cases hkey : other = key
  · simp [hkey]
  · simp [hkey, Ne.symm hkey]

/-- The operator of an argument. -/
def readOperator (code : Int) : Except Failure Metadata.Operator :=
  match Metadata.Operator.ofCode? code with
  | some operator => .ok operator
  | none => .error (.invalidArgument ("unknown constraint operator " ++ Numeral.signedText code))

/-- Adds a constraint to a set, after reading the arguments one by one. -/
def addConstraint (state : State) (constraints : Pointer) (key : RawText) (code : Int)
    (value : RawValue) : Except Failure State := do
  let (name, set) ← object "constraints" constraints state.constraintSets
  let key ← readText "constraint key" key
  let operator ← readOperator code
  let value ← value.read "constraint value"
  return { state with
    constraintSets := state.constraintSets.insert name (set.insert key ⟨operator, value⟩) }

theorem perform_addConstraint (state : State) (constraints : Pointer) (key : RawText) (code : Int)
    (value : RawValue) :
    perform state (.addConstraint constraints key code value) =
      settle state (.bool true) (addConstraint state constraints key code value) := by
  refine congrArg (settle state (.bool true)) (bind_congr fun found => bind_congr fun keyText => ?_)
  unfold readOperator
  cases Metadata.Operator.ofCode? code with
  | some operator => rfl
  | none => rfl

theorem readOperator_eq_ok_iff {code : Int} {operator : Metadata.Operator} :
    readOperator code = .ok operator ↔ code = operator.code := by
  rw [← Metadata.Operator.ofCode?_eq_some_iff]
  unfold readOperator
  split
  · next hcode => simp [hcode]
  · next hcode => simp [hcode]

theorem checks_readOperator (code : Int) :
    Checks (∃ operator : Metadata.Operator, code = operator.code) (readOperator code) := by
  cases hread : readOperator code with
  | ok operator => exact .inl ⟨operator, rfl, operator, readOperator_eq_ok_iff.1 hread⟩
  | error failure =>
    refine .inr ⟨?_, ?_⟩
    · unfold readOperator at hread
      split at hread
      · exact absurd hread (by simp)
      · exact ⟨_, congrArg Except.error (Except.error.inj hread).symm⟩
    · rintro ⟨operator, hoperator⟩
      rw [readOperator_eq_ok_iff.2 hoperator] at hread
      exact absurd hread (by simp)

theorem checks_addConstraint (state : State) (constraints : Pointer) (key : RawText) (code : Int)
    (value : RawValue) :
    Checks (Leads constraints state.constraintSets ∧ IsText key ∧
        (∃ operator : Metadata.Operator, code = operator.code) ∧
        ∀ raw ∈ value.texts, IsText raw)
      (addConstraint state constraints key code value) :=
  (checks_object "constraints" constraints state.constraintSets).bind fun _ =>
    (checks_readText "constraint key" key).bind fun _ =>
      (checks_readOperator code).bind fun _ =>
        (checks_readValue "constraint value" value).map _

/-- A constraint is added unless the operator is unknown or an argument is no text. -/
theorem fails_addConstraint_iff (h : state.constraintSets.find? name = some set) (key : RawText)
    (code : Int) (value : RawValue) :
    Fails state (.addConstraint (some name) key code value) ↔
      (∀ operator : Metadata.Operator, code ≠ operator.code) ∨
        ∃ raw ∈ key :: value.texts, ¬IsText raw := by
  have hleads : Leads (some name) state.constraintSets := ⟨set, h⟩
  unfold Fails
  rw [perform_addConstraint, fails_settle_iff, ← not_iff_not, not_exists_eq_error_iff,
    (checks_addConstraint state (some name) key code value).exists_eq_ok_iff, not_or]
  simp only [ne_eq, not_forall, not_not, not_exists, not_and, List.forall_mem_cons]
  constructor
  · rintro ⟨-, hkey, hoperator, hvalue⟩
    exact ⟨hoperator, hkey, hvalue⟩
  · rintro ⟨hoperator, hkey, hvalue⟩
    exact ⟨hleads, hkey, hoperator, hvalue⟩

theorem unharmed_of_constrains (hconstrains : call.constrains name = true)
    (hfails : Fails state call) : (perform state call).2 = state := by
  obtain ⟨failure, hfailure⟩ := hfails
  cases call with
  | addConstraint => exact snd_settle_of_error hfailure
  | _ => exact absurd hconstrains (by simp [Call.constrains])

/-- Adding to a set puts the constraint that was asked for at its key. -/
theorem addConstraint_inv {constraints : Pointer} {key : RawText} {code : Int} {value : RawValue}
    {after : State} (h : addConstraint state constraints key code value = .ok after) :
    ∃ name set entry, constraints = some name ∧ state.constraintSets.find? name = some set ∧
      Call.AsksForConstraint (.addConstraint constraints key code value) entry ∧
      after.constraintSets = state.constraintSets.insert name (set.insert entry.1 entry.2) := by
  obtain ⟨⟨name, set⟩, hobject, h⟩ := bind_eq_ok_iff.1 h
  obtain ⟨keyText, hkey, h⟩ := bind_eq_ok_iff.1 h
  obtain ⟨operator, hoperator, h⟩ := bind_eq_ok_iff.1 h
  obtain ⟨read, hvalue, h⟩ := bind_eq_ok_iff.1 h
  obtain rfl := Except.ok.inj h
  obtain ⟨rfl, hfind⟩ := object_eq_ok_iff.1 hobject
  obtain rfl := readOperator_eq_ok_iff.1 hoperator
  exact ⟨name, set, (keyText, ⟨operator, read⟩), rfl, hfind,
    .addConstraint (spells_of_readText hkey) (isValue_of_read hvalue), rfl⟩

/-- A step leaves the constraint set of a name, or adds to it what was asked for. -/
theorem Step.find?_constraintSets_after {step : Step}
    (h : step.before.constraintSets.find? name = some set)
    (hstays : step.call.dropsConstraints name = false) :
    (step.constrained name = false ∧ step.after.constraintSets.find? name = some set) ∨
      step.constrained name = true ∧ ∃ entry, step.call.AsksForConstraint entry ∧
        step.after.constraintSets.find? name = some (set.insert entry.1 entry.2) := by
  obtain ⟨ledger, before, call⟩ := step
  unfold Step.constrained Step.outcome Step.after
  cases hrestricts : call.restricts with
  | false =>
    left
    refine ⟨?_, ?_⟩
    · cases call with
      | addConstraint => exact absurd hrestricts (by simp [Call.restricts])
      | _ => rfl
    · rw [(spares_perform before call).constraintSets hrestricts]
      exact h
  | true =>
    cases call with
    | newConstraints target =>
      left
      refine ⟨rfl, ?_⟩
      show (before.constraintSets.insert target .empty).find? name = some set
      rw [Dict.find?_insert, if_neg]
      · exact h
      · rintro rfl
        exact absurd hstays (by simp [Call.dropsConstraints])
    | freeConstraints constraints =>
      left
      refine ⟨rfl, ?_⟩
      cases constraints with
      | none => exact h
      | some released =>
        show (before.constraintSets.erase released).find? name = some set
        rw [Dict.find?_erase, if_neg]
        · exact h
        · rintro rfl
          exact absurd hstays (by simp [Call.dropsConstraints])
    | addConstraint constraints key code value =>
      dsimp only
      rw [perform_addConstraint]
      cases hadd : addConstraint before constraints key code value with
      | error failure => exact .inl ⟨Bool.and_false _, h⟩
      | ok after =>
        obtain ⟨other, found, entry, rfl, hfind, hasks, hafter⟩ := addConstraint_inv hadd
        dsimp only [settle]
        rw [hafter]
        by_cases hother : other = name
        · subst hother
          obtain rfl := Option.some.inj (h.symm.trans hfind)
          refine .inr ⟨?_, entry, hasks, ?_⟩
          · simp [Call.constrains, Except.isOk, Except.toBool]
          · rw [Dict.find?_insert, if_pos rfl]
        · refine .inl ⟨?_, ?_⟩
          · simp [Call.constrains, hother]
          · rw [Dict.find?_insert, if_neg (Ne.symm hother)]
            exact h
    | _ => exact absurd hrestricts (by simp [Call.restricts])

/-- A constraint set that stays has what the calls that succeeded asked for. -/
theorem Run.addedUp {start : State} {ledger : Ledger} (hrun : Run start trace ledger state)
    (hset : start.constraintSets.find? name = some before)
    (hstays : ∀ step ∈ trace, step.call.dropsConstraints name = false) :
    ∃ set added, AddedUp name before trace state set added := by
  suffices hadded : ∃ set added, state.constraintSets.find? name = some set ∧
      List.Forall₂ Call.AsksForConstraint
        ((trace.filter (Step.constrained name)).map Step.call) added ∧
      ReflectsAdded before added set by
    obtain ⟨set, added, hheld, hasked, hreflects⟩ := hadded
    exact ⟨set, added, hheld, hasked, hreflects, fails_addConstraint_iff hheld,
      fun _ hcall => unharmed_of_constrains hcall⟩
  induction hrun with
  | start => exact ⟨before, [], hset, .nil, reflectsAdded_refl before⟩
  | @call trace ledger state _ call ih =>
    obtain ⟨hearlier, hlast⟩ := List.forall_mem_append.1 hstays
    obtain ⟨set, added, hheld, hasked, hreflects⟩ := ih hearlier
    rw [List.filter_append, List.map_append]
    have hkept := hlast ⟨ledger, state, call⟩ (List.mem_singleton_self _)
    rcases Step.find?_constraintSets_after hheld hkept with
      ⟨hnot, hafter⟩ | ⟨hadds, entry, hasks, hafter⟩
    · rw [List.filter_cons_of_neg (by simp [hnot])]
      exact ⟨set, added, hafter, by simpa using hasked, hreflects⟩
    · rw [List.filter_cons_of_pos hadds]
      exact ⟨_, added ++ [entry], hafter, List.rel_append hasked (.cons hasks .nil),
        hreflects.insert entry.1 entry.2⟩
  | meanwhile _ disk _ ih => exact ih hstays

end

/-- A document reflects the edits that succeeded, and a constraint set has for each key the
constraint that was added last, whether they are built directly or by calls at the boundary, and
whatever else is called in between.  Setting a value fails exactly if the chunk is not there or an
argument is no text, and nothing that fails changes anything. -/
theorem objects_hold_what_was_set_last :
    (∀ (draft : Document) (edits : List Document.Edit), draft.AddsUp edits) ∧
      ∀ {start state : State} {trace : List Step} {ledger : Ledger},
        Run start trace ledger state → ∀ name,
          (∀ draft, start.documents.find? name = some (some draft) →
            (∀ step ∈ trace, step.call.drops name = false ∧ step.reaches name = false) →
            ∃ document edits, MadeOf name draft trace state document edits) ∧
          ∀ before, start.constraintSets.find? name = some before →
            (∀ step ∈ trace, step.call.dropsConstraints name = false) →
            ∃ set added, AddedUp name before trace state set added := by
  refine ⟨Document.addsUp, ?_⟩
  intro start state trace ledger hrun name
  exact ⟨fun draft => hrun.madeOf, fun before => hrun.addedUp⟩

/-- A new document and a new constraint set. -/
def workbench : State :=
  (perform (perform .empty (.newDocument "draft" (some (bytesOf "a.txt")) (some (bytesOf "a")))).2
    (.newConstraints "set")).2

/-- Calls on the document and the set, of which every other one fails or is outdone later. -/
def buildingCalls : List Call :=
  let text (s : String) : RawText := some (bytesOf s)
  [.addChunk (some "draft") (text "alpha"), .addChunk (some "draft") none,
    .setMetadata (some "draft") 0 (text "color") (.text (text "blue")),
    .setMetadata (some "draft") 1 (text "color") (.text (text "red")),
    .setMetadata (some "draft") 0 (text "color") (.text (text "green")),
    .setMetadata (some "draft") 0 (some [0xFF]) (.bool true), .insert none (some "draft"),
    .setVersion (some "draft") 3, .setVersion (some "draft") 7,
    .addConstraint (some "set") (text "color") 0 (.text (text "blue")),
    .addConstraint (some "set") (text "color") 9 (.bool true),
    .addConstraint (some "set") (text "color") 2 (.text (text "green"))]

theorem workbench_holds_what_was_set_last :
    (∃ edits, MadeOf "draft" (.new "a.txt" "a") (replay workbench buildingCalls).1
      (replay workbench buildingCalls).2.2
      ⟨"a.txt", "a", some 7, ["alpha"], [Dict.empty.insert "color" (.str "green")], rfl⟩ edits) ∧
      ∃ added, AddedUp "set" .empty (replay workbench buildingCalls).1
        (replay workbench buildingCalls).2.2
        (Dict.empty.insert "color" ⟨.greater, .str "green"⟩) added := by
  have hdraft : workbench.documents.find? "draft" = some (some (.new "a.txt" "a")) := by
    decide +kernel
  have hset : workbench.constraintSets.find? "set" = some .empty := by
    decide +kernel
  have hstays : ∀ step ∈ (replay workbench buildingCalls).1,
      (step.call.drops "draft" = false ∧ step.reaches "draft" = false) ∧
        step.call.dropsConstraints "set" = false := by
    decide +kernel
  have hdocument : (replay workbench buildingCalls).2.2.documents.find? "draft" = some (some
      ⟨"a.txt", "a", some 7, ["alpha"], [Dict.empty.insert "color" (.str "green")], rfl⟩) := by
    decide +kernel
  have hconstraints : (replay workbench buildingCalls).2.2.constraintSets.find? "set" =
      some (Dict.empty.insert "color" ⟨.greater, .str "green"⟩) := by
    decide +kernel
  have hrun := run_replay workbench buildingCalls
  obtain ⟨document, edits, hmade⟩ := (objects_hold_what_was_set_last.2 hrun "draft").1 _ hdraft
    fun step hstep => (hstays step hstep).1
  obtain ⟨set, added, hadded⟩ := (objects_hold_what_was_set_last.2 hrun "set").2 _ hset
    fun step hstep => (hstays step hstep).2
  obtain rfl := Option.some.inj (Option.some.inj (hmade.held.symm.trans hdocument))
  obtain rfl := Option.some.inj (hadded.held.symm.trans hconstraints)
  exact ⟨⟨edits, hmade⟩, added, hadded⟩

end ChunkStore.Boundary
