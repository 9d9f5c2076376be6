import ChunkStore.Text.Blank
import ChunkStore.Text.Token
import Mathlib

/-!
# The words of a text

A text is cut into tokens at every character that is no letter and no digit.  So each run of letters
and digits that cannot be made longer is a token of the text, unless it is a stop word, and such a
run by itself is a text of this one token.
-/

set_option autoImplicit false

namespace ChunkStore.Text

/-! ### Characters of words -/

/-- White space is neither a letter nor a digit. -/
theorem isAlphanumeric_of_isSpace {c : Char} (h : isSpace c = true) : isAlphanumeric c = false := by
  have hbounds : c.toNat ∈ [9, 10, 11, 12, 13, 0x20, 0x85, 0xA0, 0x1680, 0x2000, 0x2001, 0x2002,
      0x2003, 0x2004, 0x2005, 0x2006, 0x2007, 0x2008, 0x2009, 0x200A, 0x2028, 0x2029, 0x202F,
      0x205F, 0x3000] := by
    simp only [isSpace, Bool.or_eq_true, Bool.and_eq_true, decide_eq_true_eq] at h
    simp only [List.mem_cons, List.not_mem_nil, or_false]
    omega
  have hspaces : ∀ n ∈ [9, 10, 11, 12, 13, 0x20, 0x85, 0xA0, 0x1680, 0x2000, 0x2001, 0x2002,
      0x2003, 0x2004, 0x2005, 0x2006, 0x2007, 0x2008, 0x2009, 0x200A, 0x2028, 0x2029, 0x202F,
      0x205F, 0x3000], Alphanumeric.within n Alphanumeric.ranges = false := by
    decide +kernel
  exact hspaces _ hbounds

theorem isSpace_of_isAlphanumeric {c : Char} (h : isAlphanumeric c = true) : isSpace c = false := by
  cases hspace : isSpace c with
  | false => rfl
  | true =>
    rw [isAlphanumeric_of_isSpace hspace] at h
    exact absurd h (by simp)

/-! ### Runs -/

/-- Characters that make up one word: at least one, and all of them letters and digits. -/
structure IsWord (word : List Char) : Prop where
  ne_nil : word ≠ []
  isAlphanumeric : ∀ c ∈ word, isAlphanumeric c = true

/-- A run of letters and digits in a text that cannot be made longer. -/
structure IsMaximalRun (run text : List Char) : Prop extends IsWord run where
  ends : ∃ before after, text = before ++ run ++ after ∧
    (∀ c, before.getLast? = some c → Text.isAlphanumeric c = false) ∧
    ∀ c, after.head? = some c → Text.isAlphanumeric c = false

/-- A run of letters and digits that cannot be made longer, between what stands before it and what
stands after it. -/
structure IsRunBetween (before run after : List Char) : Prop extends IsWord run where
  before_ends : ∀ c, before.getLast? = some c → Text.isAlphanumeric c = false
  after_ends : ∀ c, after.head? = some c → Text.isAlphanumeric c = false

variable {word run text before after : List Char}

/-- What is cut off in front of what ends a word is the word. -/
theorem takeWhile_append_of_ends (hword : ∀ c ∈ word, isAlphanumeric c = true)
    (hafter : ∀ c, after.head? = some c → isAlphanumeric c = false) :
    (word ++ after).takeWhile isAlphanumeric = word := by
  rw [List.takeWhile_append_of_pos hword]
  cases after with
  | nil => simp
  | cons c after => simp [hafter c rfl]

theorem byteSize_append (first second : List Char) :
    byteSize (first ++ second) = byteSize first + byteSize second := by
  have hadd : ∀ (row : List Char) (size : Nat),
      row.foldl (fun size c => size + c.utf8Size) size = size + byteSize row := by
    intro row
    induction row with
    | nil => intro size; rfl
    | cons c row ih =>
      intro size
      unfold byteSize
      rw [List.foldl_cons, List.foldl_cons, ih, ih (0 + c.utf8Size)]
      omega
  unfold byteSize
  rw [List.foldl_append, hadd]
  rfl

theorem byteSize_cons (c : Char) (row : List Char) :
    byteSize (c :: row) = c.utf8Size + byteSize row := by
  have happend := byteSize_append [c] row
  have hsingle : byteSize [c] = c.utf8Size := Nat.zero_add _
  rwa [hsingle] at happend

/-- A text that is cut outside of a word has the runs of both parts. -/
theorem runs_append (hbefore : ∀ c, before.getLast? = some c → isAlphanumeric c = false)
    (tail : List Char) (offset : Nat) :
    runs offset (before ++ tail) = runs offset before ++ runs (offset + byteSize before) tail := by
  induction offset, before using runs.induct with
  | case1 offset => rw [runs]; rfl
  | case2 offset c rest hc first ih =>
    -- The first run ends in front of the cut, since the last character is in no word.
    have hends : ¬∀ d ∈ rest, isAlphanumeric d = true := by
      intro hall
      have hletters : ∀ d ∈ c :: rest, isAlphanumeric d = true := List.forall_mem_cons.2 ⟨hc, hall⟩
      have hlast := hbefore _ (List.getLast?_eq_some_getLast (List.cons_ne_nil c rest))
      rw [hletters _ (List.getLast_mem _)] at hlast
      exact absurd hlast (by simp)
    have hkept : rest.dropWhile isAlphanumeric ≠ [] :=
      fun hnil => hends (List.dropWhile_eq_nil_iff.1 hnil)
    have htake : (rest ++ tail).takeWhile isAlphanumeric = rest.takeWhile isAlphanumeric := by
      rw [List.takeWhile_append, if_neg]
      intro hlength
      exact hends (List.takeWhile_eq_self_iff.1 (List.takeWhile_prefix _ |>.eq_of_length hlength))
    have hdrop : (rest ++ tail).dropWhile isAlphanumeric =
        rest.dropWhile isAlphanumeric ++ tail := by
      rw [List.dropWhile_append, if_neg (by simpa using hkept)]
    have hlast : ∀ d, (rest.dropWhile isAlphanumeric).getLast? = some d →
        isAlphanumeric d = false := by
      intro d hd
      apply hbefore
      obtain ⟨front, hfront⟩ := List.dropWhile_suffix (l := rest) isAlphanumeric
      rw [← hfront, ← List.cons_append, List.getLast?_append, hd]
      rfl
    have hsize : byteSize (c :: rest) =
        byteSize first + byteSize (rest.dropWhile isAlphanumeric) := by
      rw [← byteSize_append, List.cons_append, List.takeWhile_append_dropWhile]
    rw [List.cons_append, runs, if_pos hc, runs, if_pos hc]
    simp only [htake, hdrop]
    rw [ih hlast, hsize, List.cons_append, Nat.add_assoc]
  | case3 offset c rest hc ih =>
    have hlast : ∀ d, rest.getLast? = some d → isAlphanumeric d = false := by
      intro d hd
      apply hbefore
      rw [List.getLast?_cons, hd]
      rfl
    rw [List.cons_append, runs, if_neg hc, runs, if_neg hc, ih hlast, byteSize_cons, Nat.add_assoc]

/-- A run in its place is found there, behind the runs in front of it. -/
theorem runs_of_isRunBetween (h : IsRunBetween before run after) (offset : Nat) :
    runs offset (before ++ run ++ after) = runs offset before ++
      (offset + byteSize before, run) ::
        runs (offset + byteSize before + byteSize run) after := by
  obtain ⟨c, letters, rfl⟩ := List.exists_cons_of_ne_nil h.ne_nil
  obtain ⟨hc, hletters⟩ := List.forall_mem_cons.1 h.isAlphanumeric
  have htake := takeWhile_append_of_ends hletters h.after_ends
  have hdrop : (letters ++ after).dropWhile isAlphanumeric = after := by
    have hsplit := List.takeWhile_append_dropWhile (p := isAlphanumeric) (l := letters ++ after)
    rw [htake] at hsplit
    exact List.append_cancel_left hsplit
  rw [List.append_assoc, runs_append h.before_ends, List.cons_append, runs, if_pos hc]
  simp only [htake, hdrop]

/-- Every run that cannot be made longer is found. -/
theorem exists_mem_runs (h : IsMaximalRun run text) (offset : Nat) :
    ∃ start, (start, run) ∈ runs offset text := by
  obtain ⟨hword, before, after, rfl, hbefore, hafter⟩ := h
  rw [runs_of_isRunBetween ⟨hword, hbefore, hafter⟩]
  exact ⟨_, List.mem_append_right _ List.mem_cons_self⟩

/-- A word by itself is one run. -/
theorem runs_of_isWord (h : IsWord word) : runs 0 word = [(0, word)] := by
  obtain ⟨c, rest, rfl⟩ := List.exists_cons_of_ne_nil h.ne_nil
  obtain ⟨hc, hrest⟩ := List.forall_mem_cons.1 h.isAlphanumeric
  have htake : rest.takeWhile isAlphanumeric = rest := List.takeWhile_eq_self_iff.2 hrest
  have hdrop : rest.dropWhile isAlphanumeric = [] := List.dropWhile_eq_nil_iff.2 hrest
  rw [runs, if_pos hc]
  simp only [htake, hdrop, runs]

/-! ### Tokens -/

/-- The lower-case form of a word. -/
def lowerForm (word : List Char) : String :=
  String.ofList (lower word)

/-- A run that cannot be made longer is a token, unless its lower-case form is a stop word. -/
theorem exists_mem_tokens {stopWords : List String} {text : String}
    (h : IsMaximalRun run text.toList) (hstop : lowerForm run ∉ stopWords) :
    ∃ token ∈ tokens stopWords text, token.word = lowerForm run := by
  obtain ⟨start, hstart⟩ := exists_mem_runs h 0
  obtain ⟨position, hposition, hget⟩ := List.mem_iff_getElem.1 hstart
  refine ⟨⟨lowerForm run, position, start, start + byteSize run⟩, ?_, rfl⟩
  apply List.mem_filter.2
  constructor
  · apply List.mem_mapIdx.2
    refine ⟨position, hposition, ?_⟩
    rw [hget]
    rfl
  · simpa using hstop

/-- A word by itself has one token, unless its lower-case form is a stop word. -/
theorem tokens_of_isWord {stopWords : List String} (h : IsWord word)
    (hstop : lowerForm word ∉ stopWords) :
    tokens stopWords (String.ofList word) = [⟨lowerForm word, 0, 0, byteSize word⟩] := by
  have hall : allTokens (String.ofList word) = [⟨lowerForm word, 0, 0, byteSize word⟩] := by
    unfold allTokens
    rw [String.toList_ofList, runs_of_isWord h]
    simp [lowerForm]
  unfold tokens
  rw [hall]
  simpa using hstop

end ChunkStore.Text
