import ChunkStore.Proofs.Boundary.Arguments

/-!
# Messages in error slots

The message that a caller gets shows every null character of the failure's own message as a
backslash and a zero.  So it has no null byte before its end, and whoever reads it gets all of it.
It still starts with the words of its kind of failure, which tell the kinds apart.
-/

set_option autoImplicit false

namespace ChunkStore

/-- The kinds of failures. -/
inductive FailureKind where
  | construction
  | insert
  | query
  | save
  | delete
  | sources
  | indexOutOfRange
  | typeMismatch
  | invalidArgument
  | invalidConfig
deriving DecidableEq

instance : Fintype FailureKind where
  elems := {.construction, .insert, .query, .save, .delete, .sources, .indexOutOfRange,
    .typeMismatch, .invalidArgument, .invalidConfig}
  complete := by
    intro kind
    cases kind <;> decide

/-- The words that messages of a kind start with. -/
def FailureKind.words : FailureKind → String
  | .construction => "Failed to open engine: "
  | .insert => "Insert failed: "
  | .query => "Query failed: "
  | .save => "Save failed: "
  | .delete => "Delete failed: "
  | .sources => "Listing sources failed: "
  | .indexOutOfRange => "Index "
  | .typeMismatch => "Metadata type mismatch: "
  | .invalidArgument => "Invalid argument: "
  | .invalidConfig => "Invalid configuration: "

/-- No kind's words start with those of another kind. -/
theorem FailureKind.eq_of_words_prefix {kind other : FailureKind}
    (h : kind.words.toList <+: other.words.toList) : kind = other := by
  revert kind other
  decide

/-- The kind of a failure. -/
def Failure.kind : Failure → FailureKind
  | .construction _ => .construction
  | .insert _ => .insert
  | .query _ => .query
  | .save _ => .save
  | .delete _ => .delete
  | .sources _ => .sources
  | .indexOutOfRange _ _ => .indexOutOfRange
  | .typeMismatch _ _ => .typeMismatch
  | .invalidArgument _ => .invalidArgument
  | .invalidConfig _ => .invalidConfig

theorem Failure.words_prefix (failure : Failure) :
    failure.kind.words.toList <+: failure.message.toList := by
  cases failure with
  | indexOutOfRange index length =>
    unfold Failure.message
    simp only [String.toList_append, List.append_assoc]
    exact List.prefix_append ..
  | typeMismatch expected found =>
    have hwords : "Metadata type mismatch: expected ".toList =
        FailureKind.typeMismatch.words.toList ++ "expected ".toList := by
      decide
    unfold Failure.message
    simp only [String.toList_append, hwords, List.append_assoc]
    exact List.prefix_append ..
  | _ =>
    unfold Failure.message
    rw [String.toList_append]
    exact List.prefix_append ..

namespace Boundary

open CString

/-! ### Null characters -/

/-- Characters show other ones: each null character as a backslash and a zero, and every other
character as it is. -/
inductive Shows : List Char → List Char → Prop where
  | nil : Shows [] []
  | null {shown original : List Char} (h : Shows shown original) :
      Shows ('\\' :: '0' :: shown) ('\x00' :: original)
  | char {shown original : List Char} (c : Char) (hc : c ≠ '\x00') (h : Shows shown original) :
      Shows (c :: shown) (c :: original)

variable {shown shown' original original' : List Char}

theorem Shows.null_not_mem (h : Shows shown original) : '\x00' ∉ shown := by
  induction h with
  | nil => exact List.not_mem_nil
  | null _ ih => simpa using ih
  | char c hc _ ih => exact List.not_mem_cons_of_ne_of_not_mem hc.symm ih

/-- Characters are shown in one way only. -/
theorem Shows.unique (h : Shows shown original) (h' : Shows shown' original) : shown = shown' := by
  induction h generalizing shown' with
  | nil =>
    cases h'
    rfl
  | null _ ih =>
    cases h' with
    | null h' => rw [ih h']
    | char _ hc _ => exact absurd rfl hc
  | char c hc _ ih =>
    cases h' with
    | null _ => exact absurd rfl hc
    | char _ _ h' => rw [ih h']

theorem Shows.append (h : Shows shown original) (h' : Shows shown' original') :
    Shows (shown ++ shown') (original ++ original') := by
  induction h with
  | nil => exact h'
  | null _ ih => exact .null ih
  | char c hc _ ih => exact .char c hc ih

theorem Shows.of_not_mem (h : '\x00' ∉ original) : Shows original original := by
  induction original with
  | nil => exact .nil
  | cons c original ih =>
    obtain ⟨hc, horiginal⟩ := List.ne_and_not_mem_of_not_mem_cons h
    exact .char c hc.symm (ih horiginal)

theorem shows_flatMap (original : List Char) :
    Shows (original.flatMap fun c => if c = '\x00' then ['\\', '0'] else [c]) original := by
  induction original with
  | nil => exact .nil
  | cons c original ih =>
    rw [List.flatMap_cons]
    split
    · next hc =>
      rw [hc]
      exact .null ih
    · next hc => exact .char c hc ih

/-- The message that is handed out shows the failure's own message. -/
theorem shows_errorText (failure : Failure) :
    Shows (errorText failure).toList failure.message.toList := by
  unfold errorText
  rw [String.toList_ofList]
  exact shows_flatMap failure.message.toList

/-! ### The words of a kind -/

theorem words_prefix_errorText (failure : Failure) :
    failure.kind.words.toList <+: (errorText failure).toList := by
  obtain ⟨rest, hrest⟩ := failure.words_prefix
  have hwords : '\x00' ∉ failure.kind.words.toList := by
    generalize failure.kind = kind
    revert kind
    decide
  have hshows := shows_errorText failure
  rw [← hrest] at hshows
  rw [hshows.unique ((Shows.of_not_mem hwords).append (shows_flatMap rest))]
  exact List.prefix_append ..

/-- Failures of two kinds never have one message. -/
theorem kind_eq_of_errorText_eq {failure other : Failure}
    (h : errorText failure = errorText other) : failure.kind = other.kind := by
  have hwords := words_prefix_errorText failure
  rw [h] at hwords
  rcases List.prefix_or_prefix_of_prefix hwords (words_prefix_errorText other) with
    hprefix | hprefix
  · exact FailureKind.eq_of_words_prefix hprefix
  · exact (FailureKind.eq_of_words_prefix hprefix).symm

theorem errorText_ne_empty (failure : Failure) : errorText failure ≠ "" := by
  intro hempty
  have hwords := words_prefix_errorText failure
  rw [hempty] at hwords
  have hnil : failure.kind.words.toList = [] := List.prefix_nil.1 hwords
  generalize failure.kind = kind at hnil
  revert kind
  decide

/-! ### Reading a message back -/

/-- Only the null character has a null byte. -/
theorem eq_of_zero_mem_utf8EncodeChar {c : Char} (h : 0 ∈ String.utf8EncodeChar c) :
    c = '\x00' := by
  have hbyte : ∀ n : Nat, 0 = UInt8.ofNat n → n % 256 = 0 := by
    intro n hn
    have hnat := congrArg UInt8.toNat hn
    simpa using hnat.symm
  unfold String.utf8EncodeChar at h
  dsimp only at h
  split at h
  · next hsmall =>
    have hzero := hbyte _ (List.mem_singleton.1 h)
    apply Char.ext
    apply UInt32.toNat_inj.1
    show c.val.toNat = 0
    omega
  -- The first byte of a longer character has a leading bit, and the others have one as well.
  · exfalso
    split at h
    · simp only [List.mem_cons, List.not_mem_nil, or_false] at h
      rcases h with h | h
      all_goals
        have hzero := hbyte _ h
        omega
    · split at h
      · simp only [List.mem_cons, List.not_mem_nil, or_false] at h
        rcases h with h | h | h
        all_goals
          have hzero := hbyte _ h
          omega
      · simp only [List.mem_cons, List.not_mem_nil, or_false] at h
        rcases h with h | h | h | h
        all_goals
          have hzero := hbyte _ h
          omega

theorem zero_not_mem_bytesOf {text : String} (h : '\x00' ∉ text.toList) : 0 ∉ bytesOf text := by
  rw [bytesOf_eq_flatMap]
  intro hmem
  obtain ⟨c, hc, hzero⟩ := List.mem_flatMap.1 hmem
  rw [eq_of_zero_mem_utf8EncodeChar hzero] at hc
  exact h hc

/-- A text without a null character is read back from a memory where it stands, whatever comes
behind the null byte at its end. -/
theorem readText_of_not_mem {text : String} (h : '\x00' ∉ text.toList) (what : String)
    (rest : List UInt8) : readText what (some (bytesOf text ++ 0 :: rest)) = .ok text := by
  rw [readText_eq_ok_iff]
  refine ⟨rfl, ?_⟩
  show bytesOf text = (bytesOf text ++ 0 :: rest).takeWhile (· ≠ 0)
  have hall : ∀ byte ∈ bytesOf text, decide (byte ≠ 0) = true := by
    intro byte hbyte
    rw [decide_eq_true_iff]
    rintro rfl
    exact zero_not_mem_bytesOf h hbyte
  rw [List.takeWhile_append_of_pos hall, List.takeWhile_cons_of_neg (by simp), List.append_nil]

/-- A message tells a failure: it is not empty, it shows all of the failure's own message, and it is
read back as a whole from wherever it stands with a null byte behind it. -/
structure Tells (message : String) (failure : Failure) : Prop where
  nonempty : message ≠ ""
  shows : Shows message.toList failure.message.toList
  read : ∀ what rest, readText what (some (bytesOf message ++ 0 :: rest)) = .ok message

theorem tells_errorText (failure : Failure) : Tells (errorText failure) failure where
  nonempty := errorText_ne_empty failure
  shows := shows_errorText failure
  read := readText_of_not_mem (shows_errorText failure).null_not_mem

end Boundary

end ChunkStore
