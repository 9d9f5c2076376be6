import ChunkStore.Proofs.Text.Runs

/-!
# Stop words

The tokens of a text are its runs of letters and digits in lower case, in the order of the text,
without those that are stop words.  Stop words are taken as they are given, and what is in lower
case stays as it is in lower case.  So a stop word that is in lower case is left out of every text,
however it is written there, and one that is not in lower case takes nothing out of any text.
-/

set_option autoImplicit false

namespace ChunkStore.Text

/-! ### Lower case -/

namespace Lowercase

/-- Whether the numbers from `low` to `high` in steps of `step` are no capital letters of runs: a
run that reaches in between is one of every second number, and they are the others. -/
def isClear (low high step : Nat) : List (Nat × Nat × Nat × Int) → Bool
  | [] => true
  | (first, last, step', _) :: rest =>
    if Nat.blt high first then true
    else if Nat.blt last low then isClear low high step rest
    else Nat.beq step' 2 && Nat.beq ((low + first) % 2) 1 && (Nat.beq step 2 || Nat.beq low high) &&
      isClear low high step rest

/-- The lower-case form of the first capital letter of a run, as a number. -/
def lowTarget (run : Nat × Nat × Nat × Int) : Nat :=
  ((run.1 : Int) + run.2.2.2).toNat

/-- The lower-case form of the last capital letter of a run, as a number. -/
def highTarget (run : Nat × Nat × Nat × Int) : Nat :=
  ((run.2.1 : Int) + run.2.2.2).toNat

/-- Whether the lower-case forms of a run are characters and no capital letters. -/
def isSettled (run : Nat × Nat × Nat × Int) : Bool :=
  decide (0 ≤ (run.1 : Int) + run.2.2.2) &&
    (Nat.blt (highTarget run) 0xD800 || Nat.ble 0xE000 (lowTarget run)) &&
    Nat.blt (highTarget run) 0x110000 &&
    (Nat.blt (highTarget run) 0x130 || Nat.blt 0x130 (lowTarget run)) &&
    isClear (lowTarget run) (highTarget run) run.2.2.1 runs

theorem isSettled_of_mem_runs : ∀ run ∈ runs, isSettled run = true := by
  have hall : runs.all isSettled = true := by decide +kernel
  exact List.all_eq_true.1 hall

variable {n low high step : Nat} {table : List (Nat × Nat × Nat × Int)}

/-- A number that is moved is a capital letter of one of the runs. -/
theorem exists_mem_of_distance_ne_zero (h : distance n table ≠ 0) :
    ∃ run ∈ table, run.1 ≤ n ∧ n ≤ run.2.1 ∧ (n - run.1) % run.2.2.1 = 0 ∧
      distance n table = run.2.2.2 := by
  induction table with
  | nil => exact absurd rfl h
  | cons run rest ih =>
    obtain ⟨first, last, step, offset⟩ := run
    rw [distance] at h ⊢
    split at h
    · exact absurd rfl h
    · next hfirst =>
      rw [if_neg hfirst]
      split at h
      · next hlast =>
        rw [if_pos hlast]
        split at h
        · next hstep =>
          rw [if_pos hstep]
          exact ⟨_, List.mem_cons_self, Nat.not_lt.1 hfirst, hlast, hstep, rfl⟩
        · next hstep =>
          rw [if_neg hstep]
          obtain ⟨run, hrun, hrest⟩ := ih h
          exact ⟨run, List.mem_cons_of_mem _ hrun, hrest⟩
      · next hlast =>
        rw [if_neg hlast]
        obtain ⟨run, hrun, hrest⟩ := ih h
        exact ⟨run, List.mem_cons_of_mem _ hrun, hrest⟩

/-- A number that is clear of the runs is not moved. -/
theorem distance_eq_zero_of_isClear (h : isClear low high step table = true) (hlow : low ≤ n)
    (hhigh : n ≤ high) (hstep : (n - low) % step = 0) : distance n table = 0 := by
  induction table with
  | nil => rfl
  | cons run rest ih =>
    obtain ⟨first, last, step', offset⟩ := run
    rw [isClear] at h
    rw [distance]
    split at h
    · next hbefore =>
      rw [Nat.blt_eq] at hbefore
      rw [if_pos (by omega)]
    · split at h
      · next hbehind =>
        rw [Nat.blt_eq] at hbehind
        rw [ih h, if_neg (show ¬n ≤ last by omega), ite_self]
      · simp only [Bool.and_eq_true, Bool.or_eq_true, Nat.beq_eq] at h
        obtain ⟨⟨⟨rfl, hparity⟩, hsingle⟩, hrest⟩ := h
        have hodd : n < first ∨ (n - first) % 2 ≠ 0 := by
          rcases hsingle with rfl | rfl <;> omega
        rw [ih hrest]
        rcases hodd with hlt | hodd
        · rw [if_pos hlt]
        · rw [if_neg hodd, ite_self, ite_self]

/-- The lower-case form of a capital letter is a character and no capital letter. -/
theorem settled_of_distance_ne_zero (h : distance n runs ≠ 0) :
    ∃ target : Nat, (n : Int) + distance n runs = target ∧ target.isValidChar ∧ target ≠ 0x130 ∧
      distance target runs = 0 := by
  obtain ⟨⟨first, last, step, offset⟩, hrun, hfirst, hlast, hstep, hoffset⟩ :=
    exists_mem_of_distance_ne_zero h
  have hsettled := isSettled_of_mem_runs _ hrun
  simp only [isSettled, lowTarget, highTarget, Bool.and_eq_true, Bool.or_eq_true,
    decide_eq_true_eq, Nat.blt_eq, Nat.ble_eq] at hsettled
  obtain ⟨⟨⟨⟨hlow, hvalid⟩, hchar⟩, hdotted⟩, hclear⟩ := hsettled
  rw [hoffset]
  dsimp only at hfirst hlast hstep ⊢
  refine ⟨((n : Int) + offset).toNat, by omega, ?_, by omega, ?_⟩
  · unfold Nat.isValidChar
    omega
  · have hsame : ((n : Int) + offset).toNat - ((first : Int) + offset).toNat = n - first := by omega
    exact distance_eq_zero_of_isClear hclear (by omega) (by omega) (by rw [hsame]; exact hstep)

end Lowercase

/-- A character that is not moved is its own lower-case form. -/
theorem lowerChar_of_distance_eq_zero {c : Char} (hdotted : c.toNat ≠ 0x130)
    (h : Lowercase.distance c.toNat Lowercase.runs = 0) : lowerChar c = [c] := by
  unfold lowerChar
  rw [if_neg hdotted, h, add_zero, Int.toNat_natCast, Char.ofNat_toNat]

theorem toNat_ofNat_of_isValidChar {n : Nat} (h : n.isValidChar) : (Char.ofNat n).toNat = n := by
  rw [Char.ofNat, dif_pos h]
  rfl

/-- What a lower-case form is made of are characters that are their own lower-case forms. -/
theorem lowerChar_of_mem_lowerChar {c d : Char} (h : d ∈ lowerChar c) : lowerChar d = [d] := by
  by_cases hdotted : c.toNat = 0x130
  · rw [lowerChar, if_pos hdotted] at h
    have hi : Lowercase.distance 'i'.toNat Lowercase.runs = 0 := by decide +kernel
    have hdot : Lowercase.distance (Char.ofNat 0x307).toNat Lowercase.runs = 0 := by
      decide +kernel
    rcases List.mem_pair.1 h with rfl | rfl
    · exact lowerChar_of_distance_eq_zero (by decide) hi
    · exact lowerChar_of_distance_eq_zero (by decide) hdot
  · by_cases hmoved : Lowercase.distance c.toNat Lowercase.runs = 0
    · rw [lowerChar_of_distance_eq_zero hdotted hmoved, List.mem_singleton] at h
      rw [h]
      exact lowerChar_of_distance_eq_zero hdotted hmoved
    · obtain ⟨target, htarget, hvalid, hother, hstays⟩ :=
        Lowercase.settled_of_distance_ne_zero hmoved
      rw [lowerChar, if_neg hdotted, htarget, Int.toNat_natCast, List.mem_singleton] at h
      have hd : d.toNat = target := h ▸ toNat_ofNat_of_isValidChar hvalid
      exact lowerChar_of_distance_eq_zero (hd ▸ hother) (hd ▸ hstays)

/-- What is in lower case stays as it is. -/
theorem lower_lower (chars : List Char) : lower (lower chars) = lower chars := by
  have hall : ∀ row : List Char, (∀ d ∈ row, lowerChar d = [d]) → lower row = row := by
    intro row
    induction row with
    | nil => intro _; rfl
    | cons d row ih =>
      intro h
      have hcons : lower (d :: row) = lowerChar d ++ lower row := List.flatMap_cons
      rw [hcons, h d List.mem_cons_self, ih fun e he => h e (List.mem_cons_of_mem _ he)]
      rfl
  apply hall
  intro d hd
  obtain ⟨c, -, hmem⟩ := List.mem_flatMap.1 hd
  exact lowerChar_of_mem_lowerChar hmem

theorem lowerForm_lowerForm (word : List Char) :
    lowerForm (lowerForm word).toList = lowerForm word := by
  unfold lowerForm
  rw [String.toList_ofList, lower_lower]

/-! ### Runs in their places -/

variable {before run after text : List Char} {offset start : Nat}

/-- A run stays one if more text comes before what is in front of it. -/
theorem IsRunBetween.append_left (h : IsRunBetween before run after) (hne : before ≠ [])
    (first : List Char) : IsRunBetween (first ++ before) run after := by
  refine ⟨h.toIsWord, ?_, h.after_ends⟩
  intro d hd
  rw [List.getLast?_append_of_ne_nil _ hne] at hd
  exact h.before_ends d hd

/-- A run stays one if a character that is in no word comes before what is in front of it. -/
theorem IsRunBetween.cons {c : Char} (h : IsRunBetween before run after)
    (hc : isAlphanumeric c = false) : IsRunBetween (c :: before) run after := by
  refine ⟨h.toIsWord, ?_, h.after_ends⟩
  intro d hd
  rw [List.getLast?_cons] at hd
  cases hlast : before.getLast? with
  | none =>
    rw [hlast] at hd
    exact Option.some.inj hd ▸ hc
  | some e =>
    rw [hlast] at hd
    exact Option.some.inj hd ▸ h.before_ends e hlast

/-- What is found is a run in its place. -/
theorem exists_of_mem_runs (h : (start, run) ∈ runs offset text) :
    ∃ before after, text = before ++ run ++ after ∧ IsRunBetween before run after ∧
      start = offset + byteSize before := by
  induction offset, text using runs.induct with
  | case1 offset =>
    rw [runs] at h
    exact absurd h List.not_mem_nil
  | case2 offset c rest hc first ih =>
    have hends : ∀ d, (rest.dropWhile isAlphanumeric).head? = some d →
        isAlphanumeric d = false := by
      intro d hd
      simpa [hd] using List.head?_dropWhile_not isAlphanumeric rest
    have hfirst : IsWord first :=
      ⟨List.cons_ne_nil _ _, List.forall_mem_cons.2 ⟨hc, fun d hd => List.mem_takeWhile_imp hd⟩⟩
    have hsplit : c :: rest = first ++ rest.dropWhile isAlphanumeric := by
      rw [List.cons_append, List.takeWhile_append_dropWhile]
    rw [runs, if_pos hc] at h
    rcases List.mem_cons.1 h with hhead | htail
    · obtain ⟨rfl, rfl⟩ := Prod.mk.inj hhead
      exact ⟨[], _, hsplit, ⟨hfirst, fun d hd => by simp at hd, hends⟩, rfl⟩
    · obtain ⟨before, after, htext, hrun, hstart⟩ := ih htail
      -- The next run does not start where the first one ends, so something stands between them.
      have hne : before ≠ [] := by
        rintro rfl
        obtain ⟨d, letters, rfl⟩ := List.exists_cons_of_ne_nil hrun.ne_nil
        have hletter := hrun.isAlphanumeric d List.mem_cons_self
        rw [hends d (by rw [htext]; rfl)] at hletter
        exact absurd hletter (by simp)
      refine ⟨first ++ before, after, ?_, hrun.append_left hne first, ?_⟩
      · rw [hsplit, htext, List.append_assoc, List.append_assoc, List.append_assoc]
      · rw [byteSize_append, hstart, Nat.add_assoc]
  | case3 offset c rest hc ih =>
    rw [runs, if_neg hc] at h
    obtain ⟨before, after, htext, hrun, hstart⟩ := ih h
    refine ⟨c :: before, after, by rw [htext]; rfl, hrun.cons (Bool.eq_false_iff.2 hc), ?_⟩
    rw [byteSize_cons, hstart, Nat.add_assoc]

/-- Runs are found in the order of the text. -/
theorem pairwise_runs (offset : Nat) (text : List Char) :
    (runs offset text).Pairwise fun first second => first.1 + byteSize first.2 ≤ second.1 := by
  induction offset, text using runs.induct with
  | case1 offset =>
    rw [runs]
    exact List.Pairwise.nil
  | case2 offset c rest hc first ih =>
    rw [runs, if_pos hc]
    refine List.pairwise_cons.2 ⟨?_, ih⟩
    rintro ⟨start, run⟩ hmem
    obtain ⟨before, after, -, -, rfl⟩ := exists_of_mem_runs hmem
    exact Nat.le_add_right _ _
  | case3 offset c rest hc ih =>
    rw [runs, if_neg hc]
    exact ih

/-! ### Tokens and stop words -/

/-- A token of a text stands for a run in its place: it has the lower-case form of the run and
covers its bytes. -/
structure Token.StandsFor (token : Token) (before run : List Char) : Prop where
  word : token.word = lowerForm run
  start : token.start = byteSize before
  stop : token.stop = byteSize before + byteSize run

variable {stopWords : List String} {token : Token}

/-- Every token stands for a run in its place. -/
theorem exists_standsFor_of_mem_allTokens {text : String} (h : token ∈ allTokens text) :
    ∃ before run after, text.toList = before ++ run ++ after ∧ IsRunBetween before run after ∧
      token.StandsFor before run := by
  obtain ⟨position, hposition, rfl⟩ := List.mem_mapIdx.1 h
  generalize hget : (runs 0 text.toList)[position] = found
  obtain ⟨start, run⟩ := found
  obtain ⟨before, after, htext, hrun, rfl⟩ := exists_of_mem_runs (hget ▸ List.getElem_mem hposition)
  rw [Nat.zero_add]
  exact ⟨before, run, after, htext, hrun, rfl, rfl, rfl⟩

/-- Every run in its place has its token. -/
theorem exists_mem_allTokens_standsFor {text : String}
    (htext : text.toList = before ++ run ++ after) (hrun : IsRunBetween before run after) :
    ∃ token ∈ allTokens text, token.StandsFor before run := by
  have hmem : (byteSize before, run) ∈ runs 0 text.toList := by
    rw [htext, runs_of_isRunBetween hrun, Nat.zero_add]
    exact List.mem_append_right _ List.mem_cons_self
  obtain ⟨position, hposition, hget⟩ := List.mem_iff_getElem.1 hmem
  refine ⟨_, List.mem_mapIdx.2 ⟨position, hposition, rfl⟩, ?_⟩
  rw [hget]
  exact ⟨rfl, rfl, rfl⟩

/-- All tokens are in the order of the text, and none reaches into the next one. -/
theorem pairwise_allTokens (text : String) :
    (allTokens text).Pairwise fun first second => first.stop ≤ second.start := by
  have hruns := List.pairwise_iff_getElem.1 (pairwise_runs 0 text.toList)
  apply List.pairwise_iff_getElem.2
  intro i j hi hj hlt
  simp only [allTokens, List.getElem_mapIdx, List.length_mapIdx] at hi hj ⊢
  exact hruns i j hi hj hlt

/-- Whether a word is its own lower-case form. -/
def isLowerCase (word : String) : Bool :=
  lowerForm word.toList = word

theorem isLowerCase_lowerForm (word : List Char) : isLowerCase (lowerForm word) = true :=
  decide_eq_true (lowerForm_lowerForm word)

theorem isLowerCase_word {text : String} (h : token ∈ allTokens text) :
    isLowerCase token.word = true := by
  obtain ⟨before, run, after, -, -, hfor⟩ := exists_standsFor_of_mem_allTokens h
  rw [hfor.word]
  exact isLowerCase_lowerForm run

/-- The tokens of a text stand for its runs of letters and digits, in lower case, and are in the
order of the text.  A run is among them if its lower-case form is not that of a stop word.  The
lower-case form of a stop word that is in lower case is not among them, and the stop words that are
not in lower case could as well not be given. -/
theorem tokens_leave_out_stop_words (stopWords : List String) (text : String) :
    (∀ token ∈ tokens stopWords text, ∃ before run after, text.toList = before ++ run ++ after ∧
        IsRunBetween before run after ∧ token.StandsFor before run) ∧
      (tokens stopWords text).Pairwise (fun first second => first.stop ≤ second.start) ∧
      (∀ before run after, text.toList = before ++ run ++ after → IsRunBetween before run after →
        (∀ stop ∈ stopWords, lowerForm run ≠ lowerForm stop.toList) →
          ∃ token ∈ tokens stopWords text, token.StandsFor before run) ∧
      (∀ stop ∈ stopWords, isLowerCase stop = true → ∀ token ∈ tokens stopWords text,
        token.word ≠ lowerForm stop.toList) ∧
      tokens (stopWords.filter isLowerCase) text = tokens stopWords text := by
  refine ⟨?_, (pairwise_allTokens text).filter _, ?_, ?_, ?_⟩
  · intro token htoken
    exact exists_standsFor_of_mem_allTokens (List.mem_filter.1 htoken).1
  · intro before run after htext hrun hstop
    obtain ⟨token, htoken, hfor⟩ := exists_mem_allTokens_standsFor htext hrun
    refine ⟨token, List.mem_filter.2 ⟨htoken, ?_⟩, hfor⟩
    have hnot : lowerForm run ∉ stopWords :=
      fun hmem => hstop _ hmem (lowerForm_lowerForm run).symm
    simpa [hfor.word] using hnot
  · intro stop hstop hlower token htoken heq
    have hkept := (List.mem_filter.1 htoken).2
    rw [heq, of_decide_eq_true hlower] at hkept
    simp [hstop] at hkept
  · apply List.filter_congr
    intro token htoken
    simp [isLowerCase_word htoken]

/-- A stop word in lower case takes the word out however it is written, and other words stay. -/
theorem capitals_are_left_out :
    isLowerCase "the" = true ∧
      (∀ token ∈ tokens ["the", "A"] "THE Cat", token.word ≠ lowerForm "the".toList) ∧
      ∃ token ∈ tokens ["the", "A"] "THE Cat", token.StandsFor "THE ".toList "Cat".toList := by
  obtain ⟨-, -, hfinds, hleaves, -⟩ := tokens_leave_out_stop_words ["the", "A"] "THE Cat"
  have hlower : isLowerCase "the" = true := by decide +kernel
  have hletters : "Cat".toList.all isAlphanumeric = true := by decide +kernel
  have hblank : isAlphanumeric ' ' = false := isAlphanumeric_of_isSpace rfl
  have hrun : IsRunBetween "THE ".toList "Cat".toList [] :=
    ⟨⟨by simp, by simpa using hletters⟩, by simpa using hblank, by simp⟩
  have hother : ∀ stop ∈ ["the", "A"], lowerForm "Cat".toList ≠ lowerForm stop.toList := by
    decide +kernel
  exact ⟨hlower, hleaves "the" (by simp) hlower, hfinds _ _ [] (by simp) hrun hother⟩

/-- A stop word in capitals is not left out, not even where the text has it as it is given. -/
theorem stop_word_in_capitals_stays :
    ∃ token ∈ tokens ["The"] "The cat", ∃ stop ∈ ["The"], token.word = lowerForm stop.toList := by
  have hletters : "The".toList.all isAlphanumeric = true := by decide +kernel
  have hblank : isAlphanumeric ' ' = false := isAlphanumeric_of_isSpace rfl
  have hrun : IsRunBetween [] "The".toList " cat".toList :=
    ⟨⟨by simp, by simpa using hletters⟩, by simp, by simpa using hblank⟩
  have htext : "The cat".toList = [] ++ "The".toList ++ " cat".toList := by simp
  obtain ⟨token, htoken, hfor⟩ := exists_mem_allTokens_standsFor htext hrun
  have hkept : lowerForm "The".toList ∉ ["The"] := by decide +kernel
  refine ⟨token, List.mem_filter.2 ⟨htoken, ?_⟩, "The", by simp, hfor.word⟩
  simpa [hfor.word] using hkept

end ChunkStore.Text
