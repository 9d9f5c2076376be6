import ChunkStore.Proofs.Text.Runs
import ChunkStore.Query.Ranking

/-!
# Queries of one word

No letter or digit means anything to the query grammar, so a query of letters and digits looks for
itself, in lower case, and its matches are the entries that have this word.  Stop words and words
too long to be indexed are another matter.
-/

set_option autoImplicit false

namespace ChunkStore.Query

open ChunkStore.Index (Entry)
open ChunkStore.Text (IsWord after? isAlphanumeric isBlank isSpace lowerForm)

/-! ### Reading a word -/

/-- The characters that mean something to the grammar. -/
def grammarChars : List Char :=
  '-' :: '<' :: '>' :: specialChars

section

variable {word : List Char} {c : Char}

theorem isAlphanumeric_of_mem_grammarChars (h : c ∈ grammarChars) : isAlphanumeric c = false := by
  have hall : (grammarChars.all fun c => !isAlphanumeric c) = true := by decide +kernel
  simpa using List.all_eq_true.1 hall c h

/-- A letter or digit means nothing to the grammar. -/
theorem not_mem_grammarChars (h : isAlphanumeric c = true) : c ∉ grammarChars := by
  intro hmem
  rw [isAlphanumeric_of_mem_grammarChars hmem] at h
  exact absurd h (by simp)

theorem ne_of_mem_grammarChars {d : Char} (h : isAlphanumeric c = true) (hd : d ∈ grammarChars) :
    c ≠ d := by
  rintro rfl
  exact not_mem_grammarChars h hd

theorem not_mem_word (h : ∀ c ∈ word, isAlphanumeric c = true) (hc : c ∈ grammarChars) :
    c ∉ word := by
  intro hmem
  exact not_mem_grammarChars (h c hmem) hc

theorem skipBlanks_word (h : ∀ c ∈ word, isAlphanumeric c = true) : skipBlanks word = word := by
  cases word with
  | nil => rfl
  | cons c rest =>
    have hblank : isBlank c = false := by
      cases hc : isBlank c with
      | false => rfl
      | true =>
        have hspace := Text.isSpace_of_isBlank hc
        rw [Text.isSpace_of_isAlphanumeric (h c List.mem_cons_self)] at hspace
        exact absurd hspace (by simp)
    exact List.dropWhile_cons_of_neg (by simp [hblank])

/-- A word does not start with characters of which one means something to the grammar. -/
theorem after?_word (h : ∀ c ∈ word, isAlphanumeric c = true) {front : List Char}
    (hc : c ∈ grammarChars) (hfront : c ∈ front) : after? front word = none := by
  cases hafter : after? front word with
  | none => rfl
  | some left =>
    rw [(Text.after?_eq_some_iff front word left).1 hafter] at h
    exact absurd hc (not_mem_grammarChars (h c (List.mem_append_left left hfront)))

theorem splitConnective_word (h : ∀ c ∈ word, isAlphanumeric c = true) :
    splitConnective word = (none, word) := by
  unfold splitConnective
  have hspace : ' ' ∈ grammarChars := by decide
  rw [after?_word h hspace (by simp), after?_word h hspace (by simp)]

theorem splitSign_word (h : ∀ c ∈ word, isAlphanumeric c = true) :
    splitSign word = (none, word) := by
  have hplus := not_mem_word h (c := '+') (by decide)
  have hminus := not_mem_word h (c := '-') (by decide)
  unfold splitSign
  split
  · exact absurd List.mem_cons_self hplus
  · exact absurd List.mem_cons_self hminus
  · rfl

theorem splitNameRest?_word (h : ∀ c ∈ word, isAlphanumeric c = true) :
    splitNameRest? word = none := by
  induction word with
  | nil => simp [splitNameRest?]
  | cons c rest ih =>
    obtain ⟨hc, hrest⟩ := List.forall_mem_cons.1 h
    have hcolon : c ≠ ':' := ne_of_mem_grammarChars hc (by decide)
    have hbackslash : c ≠ '\\' := ne_of_mem_grammarChars hc (by decide)
    unfold splitNameRest?
    split
    · rfl
    · next heq => exact absurd (List.cons.inj heq).1 hcolon
    · next heq => exact absurd (List.cons.inj heq).1 hbackslash
    · next heq =>
      obtain ⟨rfl, rfl⟩ := List.cons.inj heq
      rw [ih hrest]
      simp

/-- A word has no field name in front. -/
theorem splitName?_word (h : ∀ c ∈ word, isAlphanumeric c = true) : splitName? word = none := by
  cases word with
  | nil => simp [splitName?]
  | cons c rest =>
    obtain ⟨hc, hrest⟩ := List.forall_mem_cons.1 h
    have hminus : c ≠ '-' := ne_of_mem_grammarChars hc (by decide)
    have hbackslash : c ≠ '\\' := ne_of_mem_grammarChars hc (by decide)
    simp [splitName?, hminus, hbackslash, splitNameRest?_word hrest]

theorem splitSet?_word (h : ∀ c ∈ word, isAlphanumeric c = true) : splitSet? word = none := by
  unfold splitSet?
  cases hafter : after? ['I', 'N'] word with
  | none => rfl
  | some rest =>
    have hword := (Text.after?_eq_some_iff _ _ _).1 hafter
    have hrest : ∀ c ∈ rest, isAlphanumeric c = true := by
      intro c hc
      apply h
      rw [hword]
      exact List.mem_append_right _ hc
    have hbracket : after? ['['] rest = none :=
      after?_word hrest (c := '[') (by decide) (by simp)
    simp [skipBlanks_word hrest, hbracket]

theorem splitRange?_word (h : ∀ c ∈ word, isAlphanumeric c = true) : splitRange? word = none := by
  have hout : ∀ d ∈ grammarChars, ∀ rest, word ≠ d :: rest := by
    intro d hd rest hword
    exact not_mem_word h hd (hword ▸ List.mem_cons_self)
  unfold splitRange?
  split
  · exact absurd rfl (hout '>' (by decide) _)
  · exact absurd rfl (hout '<' (by decide) _)
  · exact absurd rfl (hout '>' (by decide) _)
  · exact absurd rfl (hout '<' (by decide) _)
  · exact absurd rfl (hout '[' (by decide) _)
  · exact absurd rfl (hout '\x7b' (by decide) _)
  · rfl

theorem splitPhrase?_word (h : ∀ c ∈ word, isAlphanumeric c = true) :
    splitPhrase? word = none := by
  cases word with
  | nil => rfl
  | cons c rest =>
    have hc := h c List.mem_cons_self
    have hdouble : c ≠ '\"' := ne_of_mem_grammarChars hc (by decide)
    have hsingle : c ≠ '\'' := ne_of_mem_grammarChars hc (by decide)
    simp [splitPhrase?, hdouble, hsingle]

theorem splitWord_word (h : ∀ c ∈ word, isAlphanumeric c = true) :
    splitWord [')', '^'] word = (word, []) := by
  induction word with
  | nil => rfl
  | cons c rest ih =>
    obtain ⟨hc, hrest⟩ := List.forall_mem_cons.1 h
    have hbackslash : c ≠ '\\' := ne_of_mem_grammarChars hc (by decide)
    have hclosing : c ≠ ')' := ne_of_mem_grammarChars hc (by decide)
    have hcaret : c ≠ '^' := ne_of_mem_grammarChars hc (by decide)
    have hstays : ¬(isSpace c || [')', '^'].contains c) = true := by
      rw [Text.isSpace_of_isAlphanumeric hc]
      simp [hclosing, hcaret]
    unfold splitWord
    split
    · next heq => exact absurd heq (List.cons_ne_nil c rest)
    · next heq => exact absurd (List.cons.inj heq).1 hbackslash
    · next heq =>
      obtain ⟨rfl, rfl⟩ := List.cons.inj heq
      rw [if_neg hstays, ih hrest]

theorem splitLiteral?_word (h : IsWord word) :
    splitLiteral? word = some (.word (String.ofList word), []) := by
  have hletters := h.isAlphanumeric
  have hword : splitWord? [')', '^'] word = (some (String.ofList word), []) := by
    obtain ⟨c, rest, rfl⟩ := List.exists_cons_of_ne_nil h.ne_nil
    unfold splitWord?
    rw [skipBlanks_word hletters, splitWord_word hletters]
  unfold splitLiteral?
  rw [splitSet?_word hletters, splitRange?_word hletters, splitPhrase?_word hletters, hword]
  rfl

/-- A word is a leaf. -/
theorem splitLeaf_word (h : IsWord word) (fuel : Nat) :
    splitLeaf (fuel + 1) word = (some (.literal none (.word (String.ofList word))), []) := by
  have hletters := h.isAlphanumeric
  have hout : ∀ d ∈ grammarChars, d ∉ word := fun d hd => not_mem_word hletters hd
  unfold splitLeaf
  split
  · exact absurd List.mem_cons_self (hout '(' (by decide))
  · exact absurd List.mem_cons_self (hout '*' (by decide))
  · exact absurd (by simp) (hout ' ' (by decide))
  · rw [splitName?_word hletters, skipBlanks_word hletters]
    dsimp only
    rw [splitLiteral?_word h]

theorem splitLeaf_nil (fuel : Nat) : splitLeaf fuel [] = (none, []) := by
  cases fuel with
  | zero => rfl
  | succ fuel => rfl

/-- Behind the last item there is none. -/
theorem splitItems_nil (fuel : Nat) : splitItems fuel false [] = ([], []) := by
  cases fuel with
  | zero => rfl
  | succ fuel =>
    have hblanks : skipBlanks [] = [] := rfl
    have hconnective : splitConnective [] = (none, []) := rfl
    have hsign : splitSign [] = (none, []) := rfl
    have hboost : splitBoost [] = (none, []) := rfl
    unfold splitItems
    simp [hblanks, hconnective, hsign, hboost, splitLeaf_nil]

/-- A word is the only item. -/
theorem splitItems_word (h : IsWord word) (fuel : Nat) :
    splitItems (fuel + 2) true word =
      ([⟨none, none, .literal none (.word (String.ofList word))⟩], []) := by
  have hletters := h.isAlphanumeric
  unfold splitItems
  simp only [if_true, splitConnective_word hletters, skipBlanks_word hletters,
    splitSign_word hletters, splitLeaf_word h]
  have hboost : splitBoost [] = (none, []) := rfl
  simp [hboost, splitItems_nil]

theorem splitExpression_word (h : IsWord word) (fuel : Nat) :
    splitExpression (fuel + 3) word = (.literal none (.word (String.ofList word)), []) := by
  unfold splitExpression
  rw [skipBlanks_word h.isAlphanumeric, splitItems_word h]
  rfl

/-- A word reads as itself. -/
theorem parse_word (h : IsWord word) :
    parse (String.ofList word) = .literal none (.word (String.ofList word)) := by
  have hletters := h.isAlphanumeric
  have hspace : ¬word.all isSpace = true := by
    obtain ⟨c, rest, rfl⟩ := List.exists_cons_of_ne_nil h.ne_nil
    simp [Text.isSpace_of_isAlphanumeric (hletters c List.mem_cons_self)]
  have hfuel : 3 * word.length + 6 = (3 * word.length + 3) + 3 := by omega
  unfold parse
  rw [String.toList_ofList, if_neg hspace, hfuel, splitExpression_word h]
  rfl

/-! ### What a word finds -/

variable {stopWords : List String}

/-- A word that is no stop word looks for its lower-case form. -/
theorem ofQuery?_word (h : IsWord word) (hstop : lowerForm word ∉ stopWords) :
    Plan.ofQuery? stopWords (parse (String.ofList word)) = some (.word (lowerForm word)) := by
  have hplan : Plan.ofExpression stopWords (parse (String.ofList word)) =
      .word (lowerForm word) := by
    rw [parse_word h]
    show Plan.ofText stopWords (String.ofList word) 0 false = _
    unfold Plan.ofText
    rw [Text.tokens_of_isWord h hstop]
    rfl
  unfold Plan.ofQuery?
  rw [hplan]
  rfl

/-- Every entry with a word is among those that a query of this word finds. -/
theorem exists_mem_rank_word (h : IsWord word) (hstop : lowerForm word ∉ stopWords)
    {entries : List Entry} {entry : Entry} (hentry : entry ∈ entries) {position : Nat}
    (hplaced : (position, lowerForm word) ∈ entry.words) :
    ∃ score, (entry, score) ∈ rank stopWords (String.ofList word) entries := by
  have hpositions : positions entry (lowerForm word) ≠ [] := by
    apply List.ne_nil_of_mem
    exact List.mem_map.2 ⟨_, List.mem_filter.2 ⟨hplaced, by simp⟩, rfl⟩
  have hscore : ∃ score, (Plan.word (lowerForm word)).score (.ofEntries entries) entry 1 =
      some score := by
    obtain ⟨first, others, hlist⟩ := List.exists_cons_of_ne_nil hpositions
    unfold Plan.score
    rw [hlist]
    exact ⟨_, rfl⟩
  obtain ⟨score, hscore⟩ := hscore
  unfold rank
  rw [ofQuery?_word h hstop]
  refine ⟨.mk score.toBits, List.mem_mergeSort.2 ?_⟩
  apply List.mem_filterMap.2
  exact ⟨entry, hentry, by rw [hscore]; rfl⟩

end

end ChunkStore.Query
