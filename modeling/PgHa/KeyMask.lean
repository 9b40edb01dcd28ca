import Mathlib.Data.List.Infix

/-!
Masking what follows a key, up to the next separator. A loop over the whole text does to
each word of it what it would do to that word alone, so two masked texts are the same
exactly if their words show the same.
-/

namespace PgHa.KeyMask

variable {Letter : Type*} [DecidableEq Letter]

/-- The text before the first occurrence of a key that is not empty, and the text after it. -/
def splitKey (key : List Letter) : List Letter → Option (List Letter × List Letter)
  | [] => none
  | c :: rest =>
      if key.isPrefixOf (c :: rest) then some ([], (c :: rest).drop key.length)
      else (splitKey key rest).map fun parts => (c :: parts.1, parts.2)

/-- After each key the text is replaced by stars, up to the separator. -/
def maskLoop (separator : Letter) (key stars : List Letter) : Nat → List Letter → List Letter
  | 0, remaining => remaining
  | turns + 1, remaining =>
      match splitKey key remaining with
      | none => remaining
      | some (before, after) =>
          before ++ (key ++ stars) ++
            maskLoop separator key stars turns (after.dropWhile (· != separator))

/-- Every turn but the last takes a key from the text. -/
def mask (separator : Letter) (key stars text : List Letter) : List Letter :=
  maskLoop separator key stars (text.length + 1) text

def maskWord (key stars word : List Letter) : List Letter :=
  match splitKey key word with
  | none => word
  | some (before, _) => before ++ (key ++ stars)

/-- What a masked word shows: its text up to a key, and whether it has one. -/
def shown (key word : List Letter) : List Letter × Bool :=
  match splitKey key word with
  | none => (word, false)
  | some (before, _) => (before, true)

variable {separator : Letter} {key stars : List Letter}

/-! ### The first key -/

theorem splitKey_append (before after : List Letter) (filled : key ≠ []) :
    (splitKey key (before ++ key ++ after)).isSome = true := by
  induction before with
  | nil =>
      cases key with
      | nil => exact absurd rfl filled
      | cons c more =>
          have whole : (c :: more).isPrefixOf (c :: (more ++ after)) = true := by
            rw [List.isPrefixOf_iff_prefix]
            exact List.prefix_append (c :: more) after
          simp only [List.nil_append, List.cons_append, splitKey, whole, if_true,
            Option.isSome_some]
  | cons c rest ih =>
      rw [List.cons_append, List.cons_append, splitKey]
      split
      · rfl
      · rw [Option.isSome_map]
        exact ih

theorem splitKey_some {text before after : List Letter}
    (found : splitKey key text = some (before, after)) :
    text = before ++ key ++ after := by
  induction text generalizing before with
  | nil => cases found
  | cons c rest ih =>
      rw [splitKey] at found
      split at found
      · rename_i opens
        cases found
        obtain ⟨tail, whole⟩ := List.isPrefixOf_iff_prefix.mp opens
        rw [← whole, List.drop_left, List.nil_append]
      · obtain ⟨parts, later, same⟩ := Option.map_eq_some_iff.mp found
        cases same
        rw [ih later]
        rfl

theorem splitKey_front {text before after : List Letter}
    (found : splitKey key text = some (before, after))
    (back : List Letter) : splitKey key (text ++ back) = some (before, after ++ back) := by
  induction text generalizing before with
  | nil => cases found
  | cons c rest ih =>
      rw [splitKey] at found
      rw [List.cons_append, splitKey]
      split at found
      · rename_i opens
        cases found
        have fits := List.isPrefixOf_iff_prefix.mp opens
        have opens' : key.isPrefixOf (c :: (rest ++ back)) = true :=
          List.isPrefixOf_iff_prefix.mpr (fits.trans (List.prefix_append _ back))
        rw [if_pos opens', ← List.cons_append, List.drop_append_of_le_length fits.length_le]
      · rename_i closed
        obtain ⟨parts, later, same⟩ := Option.map_eq_some_iff.mp found
        cases same
        have apart : key.isPrefixOf (c :: (rest ++ back)) = false := by
          by_contra opens
          rw [Bool.not_eq_false, List.isPrefixOf_iff_prefix, ← List.cons_append] at opens
          rw [splitKey_some later] at closed opens
          have long : key.length ≤ (c :: (parts.1 ++ key ++ parts.2)).length := by
            simp only [List.length_cons, List.length_append]
            omega
          exact closed (List.isPrefixOf_iff_prefix.mpr
            (List.prefix_of_prefix_length_le opens (List.prefix_append _ back) long))
        rw [if_neg (by simp [apart]), ih later]
        rfl

/-- A key has no separator, so it does not reach from one word into the next. -/
theorem splitKey_word {word : List Letter} (filled : key ≠ []) (unbroken : separator ∉ key)
    (keyless : splitKey key word = none) (rest : List Letter) :
    splitKey key (word ++ separator :: rest) =
      (splitKey key rest).map fun parts => (word ++ separator :: parts.1, parts.2) := by
  have within : ∀ front, key <+: front ++ separator :: rest → key <+: front := by
    intro front opens
    rcases List.prefix_or_prefix_of_prefix opens (List.prefix_append front _)
      with short | ⟨more, long⟩
    · exact short
    · cases more with
      | nil => exact ⟨[], by rw [List.append_nil] at long ⊢; exact long.symm⟩
      | cons c more =>
          rw [← long, List.prefix_append_right_inj, List.cons_prefix_cons] at opens
          rw [← long, opens.1] at unbroken
          exact absurd (by simp) unbroken
  induction word with
  | nil =>
      rw [List.nil_append, splitKey, if_neg]
      · rfl
      · intro opens
        exact filled (List.prefix_nil.mp (within [] (List.isPrefixOf_iff_prefix.mp opens)))
  | cons c more ih =>
      rw [splitKey] at keyless
      split at keyless
      · cases keyless
      · rename_i closed
        rw [Option.map_eq_none_iff] at keyless
        rw [List.cons_append, splitKey, if_neg, ih keyless, Option.map_map]
        · rfl
        · intro opens
          exact closed (List.isPrefixOf_iff_prefix.mpr
            (within (c :: more) (List.isPrefixOf_iff_prefix.mp opens)))

/-! ### The loop -/

theorem maskLoop_keyless (stars : List Letter) {word : List Letter} (filled : key ≠ [])
    (unbroken : separator ∉ key)
    (keyless : splitKey key word = none) (turns : Nat) (rest : List Letter) :
    maskLoop separator key stars turns (word ++ separator :: rest) =
      word ++ separator :: maskLoop separator key stars turns rest := by
  cases turns with
  | zero => rfl
  | succ turns =>
      rw [maskLoop, maskLoop, splitKey_word filled unbroken keyless]
      cases splitKey key rest with
      | none => rfl
      | some parts => simp

theorem maskLoop_nil (turns : Nat) : maskLoop separator key stars turns [] = [] := by
  cases turns with
  | zero => rfl
  | succ turns => rfl

theorem dropWhile_unbroken {text : List Letter} (whole : separator ∉ text) (rest : List Letter) :
    (text ++ rest).dropWhile (· != separator) = rest.dropWhile (· != separator) := by
  induction text with
  | nil => rfl
  | cons c more ih =>
      rw [List.mem_cons, not_or] at whole
      rw [List.cons_append, List.dropWhile_cons_of_pos (by simpa using Ne.symm whole.1)]
      exact ih whole.2

theorem maskWord_unbroken {word : List Letter} (unbroken : separator ∉ key)
    (plain : separator ∉ stars)
    (whole : separator ∉ word) : separator ∉ maskWord key stars word := by
  rw [maskWord]
  cases found : splitKey key word with
  | none => exact whole
  | some parts =>
      rw [splitKey_some found] at whole
      simp only [List.mem_append, not_or] at whole ⊢
      exact ⟨whole.1.1, unbroken, plain⟩

theorem maskLoop_last {word : List Letter} (whole : separator ∉ word) (turns : Nat) :
    maskLoop separator key stars (turns + 1) word = maskWord key stars word := by
  rw [maskLoop, maskWord]
  cases found : splitKey key word with
  | none => rfl
  | some parts =>
      rw [splitKey_some found] at whole
      have skipped :=
        dropWhile_unbroken (fun mem => whole (List.mem_append_right _ mem)) ([] : List Letter)
      rw [List.append_nil] at skipped
      dsimp only
      rw [skipped, List.dropWhile_nil, maskLoop_nil, List.append_nil]

/-- One word of the text, with turns left for the rest. -/
theorem maskLoop_word (stars : List Letter) {word : List Letter} (filled : key ≠ [])
    (unbroken : separator ∉ key)
    (whole : separator ∉ word) {turns : Nat} {rest : List Letter}
    (enough : word.length + rest.length < turns) :
    ∃ left, rest.length < left ∧
      maskLoop separator key stars (turns + 1) (word ++ separator :: rest) =
        maskWord key stars word ++ separator :: maskLoop separator key stars left rest := by
  cases found : splitKey key word with
  | none =>
      refine ⟨turns + 1, by omega, ?_⟩
      rw [maskLoop_keyless stars filled unbroken found, maskWord, found]
  | some parts =>
      refine ⟨turns, by omega, ?_⟩
      have empty : splitKey key [] = none := rfl
      have next := maskLoop_keyless stars filled unbroken empty turns rest
      have after : separator ∉ parts.2 := by
        rw [splitKey_some found] at whole
        exact fun mem => whole (List.mem_append_right _ mem)
      rw [List.nil_append, List.nil_append] at next
      rw [maskLoop, splitKey_front found, maskWord, found]
      dsimp only
      rw [dropWhile_unbroken after, List.dropWhile_cons_of_neg (by simp), next]

/-- The words of a masked text are the masked words. By induction on the text, a word at a time. -/
theorem maskLoop_words (filled : key ≠ []) (unbroken : separator ∉ key)
    (plain : separator ∉ stars)
    (turns : Nat) (text : List Letter) (enough : text.length < turns) :
    (maskLoop separator key stars turns text).splitOn separator =
      (text.splitOn separator).map (maskWord key stars) := by
  induction size : text.length using Nat.strong_induction_on generalizing text turns with
  | _ size ih =>
      subst size
      obtain ⟨turns, rfl⟩ := Nat.exists_eq_add_of_lt (Nat.zero_lt_of_lt enough)
      rw [Nat.zero_add] at enough ⊢
      by_cases more : separator ∈ text
      · obtain ⟨word, rest, rfl, whole⟩ := List.eq_append_cons_of_mem more
        rw [List.length_append, List.length_cons] at enough
        obtain ⟨left, room, masked⟩ := maskLoop_word stars filled unbroken whole
          (show word.length + rest.length < turns by omega)
        have shorter : rest.length < (word ++ separator :: rest).length := by
          rw [List.length_append, List.length_cons]
          omega
        have others := ih rest.length shorter left rest room rfl
        rw [masked, List.splitOn_append_cons_self_of_not_mem
          (maskWord_unbroken unbroken plain whole),
          List.splitOn_append_cons_self_of_not_mem whole, others, List.map_cons]
      · rw [maskLoop_last more, List.splitOn_eq_singleton (maskWord_unbroken unbroken plain more),
          List.splitOn_eq_singleton more, List.map_singleton]

/-- A word without a key shows itself, which no word with one does. -/
theorem maskWord_eq_iff (filled : key ≠ []) (first second : List Letter) :
    maskWord key stars first = maskWord key stars second ↔
      shown key first = shown key second := by
  have apart : ∀ {word before : List Letter}, splitKey key word = none →
      word ≠ before ++ (key ++ stars) := by
    rintro _ before keyless rfl
    have keyed := splitKey_append before stars filled
    rw [List.append_assoc, keyless] at keyed
    cases keyed
  rw [maskWord, maskWord, shown, shown]
  cases here : splitKey key first with
  | none =>
      cases there : splitKey key second with
      | none => simp
      | some parts => simpa using apart here
  | some parts =>
      cases there : splitKey key second with
      | none => simpa using fun same => apart there same.symm
      | some parts' => simp

omit [DecidableEq Letter] in
theorem map_eq_iff {Seen Shown : Type*} {see : List Letter → Seen} {show_ : List Letter → Shown}
    (alike : ∀ word other, see word = see other ↔ show_ word = show_ other)
    (first second : List (List Letter)) :
    first.map see = second.map see ↔ first.map show_ = second.map show_ := by
  induction first generalizing second with
  | nil => simp
  | cons word rest ih =>
      cases second with
      | nil => simp
      | cons other more => simp only [List.map_cons, List.cons.injEq, alike, ih]

theorem mask_eq_iff (filled : key ≠ []) (unbroken : separator ∉ key)
    (plain : separator ∉ stars)
    (first second : List Letter) :
    mask separator key stars first = mask separator key stars second ↔
      (first.splitOn separator).map (shown key) = (second.splitOn separator).map (shown key) := by
  have words : ∀ text, (mask separator key stars text).splitOn separator =
      (text.splitOn separator).map (maskWord key stars) :=
    fun text => maskLoop_words filled unbroken plain _ text (Nat.lt_succ_self _)
  have joined : ∀ text : List Letter, [separator].intercalate (text.splitOn separator) = text :=
    fun text => List.intercalate_splitOn separator
  have same : mask separator key stars first = mask separator key stars second ↔
      (first.splitOn separator).map (maskWord key stars) =
        (second.splitOn separator).map (maskWord key stars) := by
    rw [← words, ← words]
    constructor
    · intro equal
      rw [equal]
    · intro equal
      rw [← joined (mask separator key stars first), equal, joined]
  rw [same, map_eq_iff (maskWord_eq_iff filled)]

/-- A word that begins with a key shows nothing. -/
theorem shown_key (filled : key ≠ []) (word : List Letter) :
    shown key (key ++ word) = ([], true) := by
  cases key with
  | nil => exact absurd rfl filled
  | cons c more =>
      have whole : (c :: more).isPrefixOf (c :: (more ++ word)) = true := by
        rw [List.isPrefixOf_iff_prefix]
        exact List.prefix_append (c :: more) word
      simp only [shown, List.cons_append, splitKey, whole, if_true]

end PgHa.KeyMask
