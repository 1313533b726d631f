import Eaves.Proofs.Text.Search

/-!
# Words

The words of a text are its runs of characters between blanks.  Trimming a text and
collapsing its blanks keeps its words and leaves single spaces between them.  Where words
have been changed, some perhaps to nothing, a blank may follow a blank again: just there
where nothing stands between two others that are something.
-/

namespace Eaves.Text

/-- The words of a text: its runs of characters between blanks. -/
def words (text : List Char) : List (List Char) :=
  (text.splitOnP isBlank).filter fun word => !word.isEmpty

/-- No character is a blank. -/
def IsSolid (cs : List Char) : Prop :=
  ∀ c ∈ cs, isBlank c = false

/-- Some character is not a blank. -/
def IsVisible (cs : List Char) : Prop :=
  ∃ c ∈ cs, isBlank c = false

/-- Words with single spaces between them. -/
def sentence (ws : List (List Char)) : List Char :=
  [' '].intercalate ws

/-- A blank follows a blank. -/
def HasRun (text : List Char) : Prop :=
  ∃ c d, isBlank c = true ∧ isBlank d = true ∧ [c, d] <:+: text

variable {text word before after : List Char} {ws : List (List Char)} {c : Char}

/-! ## Words of a text -/

theorem words_append_cons (blank : isBlank c = true) (before after : List Char) :
    words (before ++ c :: after) = words before ++ words after := by
  rw [words, List.splitOnP_append_cons _ _ blank, List.filter_append]
  rfl

@[simp]
theorem words_nil : words [] = [] := by
  simp [words]

theorem words_of_isSolid (solid : IsSolid word) :
    words word = [word].filter fun word => !word.isEmpty := by
  rw [words, List.splitOnP_eq_singleton solid]

theorem words_cons (blank : isBlank c = true) (text : List Char) : words (c :: text) = words text :=
  words_append_cons blank [] text

theorem IsSolid.isVisible (solid : IsSolid word) (nonempty : word ≠ []) : IsVisible word := by
  obtain ⟨c, cs, rfl⟩ := List.exists_cons_of_ne_nil nonempty
  exact ⟨c, List.mem_cons_self, solid c List.mem_cons_self⟩

/-- A text is read from the left, word after word, each with the blank behind it. -/
@[elab_as_elim]
theorem word_induction {motive : List Char → Prop} (last : ∀ word, IsSolid word → motive word)
    (step : ∀ word c rest, IsSolid word → isBlank c = true → motive rest →
      motive (word ++ c :: rest)) (text : List Char) : motive text := by
  induction hn : text.length using Nat.strongRecOn generalizing text with
  | ind length ih =>
    have solid : IsSolid (text.takeWhile fun c => !isBlank c) :=
      fun c mem => by simpa using List.mem_takeWhile_imp mem
    have whole := List.takeWhile_append_dropWhile (p := fun c => !isBlank c) (l := text)
    cases behind : text.dropWhile fun c => !isBlank c with
    | nil =>
        rw [behind, List.append_nil] at whole
        exact whole ▸ last _ solid
    | cons c rest =>
        have blank : isBlank c = true := by
          have stops := List.head?_dropWhile_not (fun c => !isBlank c) text
          rw [behind] at stops
          simpa using stops
        rw [behind] at whole
        rw [← whole]
        refine step _ c rest solid blank (ih rest.length ?_ rest rfl)
        rw [← hn, ← whole, List.length_append, List.length_cons]
        omega

theorem isSolid_of_mem_words (mem : word ∈ words text) : IsSolid word := by
  induction text using word_induction with
  | last cs solid =>
      rw [words_of_isSolid solid] at mem
      rwa [List.mem_singleton.mp (List.mem_filter.mp mem).1]
  | step cs c rest solid blank ih =>
      rw [words_append_cons blank, words_of_isSolid solid] at mem
      rcases List.mem_append.mp mem with first | later
      · rwa [List.mem_singleton.mp (List.mem_filter.mp first).1]
      · exact ih later

theorem ne_nil_of_mem_words (mem : word ∈ words text) : word ≠ [] := by
  simpa using (List.mem_filter.mp mem).2

/-- The words hold what is not blank. -/
theorem flatten_words (text : List Char) :
    (words text).flatten = text.filter fun c => !isBlank c := by
  have kept (word : List Char) (solid : IsSolid word) :
      (words word).flatten = word.filter fun c => !isBlank c := by
    have whole : word.filter (fun c => !isBlank c) = word :=
      List.filter_eq_self.mpr fun c mem => by simp [solid c mem]
    rw [words_of_isSolid solid, whole]
    cases word <;> simp
  induction text using word_induction with
  | last word solid => exact kept word solid
  | step word c rest solid blank ih =>
      rw [words_append_cons blank, List.flatten_append, kept word solid, ih, List.filter_append,
        List.filter_cons_of_neg (by simp [blank])]

theorem mem_of_mem_words (known : word ∈ words text) (mem : c ∈ word) : c ∈ text := by
  have kept := List.mem_flatten_of_mem known mem
  rw [flatten_words] at kept
  exact (List.mem_filter.mp kept).1

theorem words_eq_nil_iff : words text = [] ↔ ∀ c ∈ text, isBlank c = true := by
  have empty : words text = [] ↔ (words text).flatten = [] := by
    rw [List.flatten_eq_nil_iff]
    constructor
    · intro none
      simp [none]
    · intro empty
      exact List.eq_nil_iff_forall_not_mem.mpr fun word mem =>
        ne_nil_of_mem_words mem (empty word mem)
  rw [empty, flatten_words, List.filter_eq_nil_iff]
  simp

theorem words_append_blanks (blanks : ∀ c ∈ after, isBlank c = true) (text : List Char) :
    words (text ++ after) = words text := by
  cases after with
  | nil => rw [List.append_nil]
  | cons c cs =>
      rw [words_append_cons (blanks c List.mem_cons_self),
        words_eq_nil_iff.mpr fun d mem => blanks d (List.mem_cons_of_mem _ mem), List.append_nil]

theorem words_blanks_append (blanks : ∀ c ∈ before, isBlank c = true) (text : List Char) :
    words (before ++ text) = words text := by
  induction before with
  | nil => rfl
  | cons c cs ih =>
      rw [List.cons_append, words_cons (blanks c List.mem_cons_self),
        ih fun d mem => blanks d (List.mem_cons_of_mem _ mem)]

/-- Trimming takes no word away. -/
theorem words_trim (text : List Char) : words (trim text) = words text := by
  obtain ⟨before, after, whole, blanksBefore, blanksAfter⟩ := exists_blanks_trim text
  conv_rhs => rw [whole]
  rw [words_blanks_append blanksBefore, words_append_blanks blanksAfter]

/-- What has no blank stands in a text exactly where it stands in one of its words. -/
theorem infix_iff_exists_words (solid : IsSolid word) (nonempty : word ≠ []) :
    word <:+: text ↔ ∃ whole ∈ words text, word <:+: whole := by
  have inOne (cs : List Char) (isSolid : IsSolid cs) :
      (∃ whole ∈ words cs, word <:+: whole) ↔ word <:+: cs := by
    rw [words_of_isSolid isSolid]
    constructor
    · rintro ⟨whole, mem, inside⟩
      rwa [List.mem_singleton.mp (List.mem_filter.mp mem).1] at inside
    · intro inside
      refine ⟨cs, ?_, inside⟩
      have some : cs ≠ [] := fun none => nonempty (List.infix_nil.mp (none ▸ inside))
      simp [some]
  induction text using word_induction with
  | last cs isSolid => exact (inOne cs isSolid).symm
  | step cs c rest isSolid blank ih =>
      have absent : c ∉ word := fun mem => by simp [solid c mem] at blank
      have ih : word <:+: rest ↔ ∃ whole ∈ words rest, word <:+: whole := ih
      rw [infix_append_cons_iff nonempty absent, words_append_cons blank, ih, ← inOne cs isSolid]
      simp only [List.mem_append, or_and_right, exists_or]

/-! ## Words with spaces between them -/

theorem sentence_cons (some : ws ≠ []) (word : List Char) :
    sentence (word :: ws) = word ++ ' ' :: sentence ws := by
  rw [sentence, List.intercalate_cons_of_ne_nil some, List.append_assoc]
  rfl

@[simp]
theorem sentence_nil : sentence [] = [] := rfl

@[simp]
theorem sentence_singleton (word : List Char) : sentence [word] = word :=
  List.intercalate_singleton ..

theorem sentence_append {others : List (List Char)} (some : ws ≠ []) (someOther : others ≠ []) :
    sentence (ws ++ others) = sentence ws ++ ' ' :: sentence others := by
  induction ws with
  | nil => exact absurd rfl some
  | cons word rest ih =>
      cases rest with
      | nil => simp [sentence_cons someOther]
      | cons next more =>
          rw [List.cons_append, sentence_cons (by simp), sentence_cons (List.cons_ne_nil _ _),
            ih (List.cons_ne_nil _ _), List.append_assoc]
          rfl

/-- What acts on either side of a space on its own acts word by word. -/
theorem map_sentence {f : List Char → List Char} (nil : f [] = [])
    (append : ∀ before after, f (before ++ ' ' :: after) = f before ++ ' ' :: f after)
    (ws : List (List Char)) : f (sentence ws) = sentence (ws.map f) := by
  induction ws with
  | nil => exact nil
  | cons word rest ih =>
      cases rest with
      | nil => simp
      | cons next more =>
          have some : (next :: more).map f ≠ [] := by simp
          rw [sentence_cons (List.cons_ne_nil _ _), append, ih, ← sentence_cons some]
          rfl

/-- The words of a sentence are those it was made of, but for empty ones. -/
theorem words_sentence (solid : ∀ word ∈ ws, IsSolid word) :
    words (sentence ws) = ws.filter fun word => !word.isEmpty := by
  induction ws with
  | nil => simp
  | cons word rest ih =>
      obtain ⟨isSolid, others⟩ := List.forall_mem_cons.mp solid
      cases rest with
      | nil => rw [sentence_singleton, words_of_isSolid isSolid]
      | cons next more =>
          rw [sentence_cons (List.cons_ne_nil _ _), words_append_cons (by decide), ih others,
            words_of_isSolid isSolid, ← List.filter_append, List.singleton_append]

theorem isVisible_sentence_iff (solid : ∀ word ∈ ws, IsSolid word) :
    IsVisible (sentence ws) ↔ ∃ word ∈ ws, word ≠ [] := by
  have none : words (sentence ws) = [] ↔ ∀ c ∈ sentence ws, isBlank c = true := words_eq_nil_iff
  rw [words_sentence solid, List.filter_eq_nil_iff] at none
  rw [← not_iff_not]
  simpa [IsVisible] using none.symm

/-- A sentence is cut at each blank into two. -/
theorem exists_sentence_append (solid : ∀ word ∈ ws, IsSolid word) (blank : isBlank c = true)
    (whole : sentence ws = before ++ c :: after) :
    c = ' ' ∧ ∃ left right, ws = left ++ right ∧ left ≠ [] ∧ right ≠ [] ∧
      sentence left = before ∧ sentence right = after := by
  induction ws generalizing before with
  | nil => simp at whole
  | cons word rest ih =>
      obtain ⟨isSolid, others⟩ := List.forall_mem_cons.mp solid
      have notIn : c ∉ word := fun mem => by simp [isSolid c mem] at blank
      cases rest with
      | nil =>
          rw [sentence_singleton] at whole
          exact absurd (by simp [whole]) notIn
      | cons next more =>
          rw [sentence_cons (List.cons_ne_nil _ _)] at whole
          rcases List.append_eq_append_iff.mp whole with ⟨rest', rfl, isRest⟩ | ⟨rest', rfl, isRest⟩
          · cases rest' with
            | nil =>
                obtain ⟨rfl, rfl⟩ := List.cons_eq_cons.mp isRest
                exact ⟨rfl, [word], next :: more, rfl, by simp, by simp, by simp, rfl⟩
            | cons d ds =>
                obtain ⟨rfl, isLater⟩ := List.cons_eq_cons.mp isRest
                obtain ⟨isSpace, left, right, parts, some, someOther, rfl, rfl⟩ := ih others isLater
                refine ⟨isSpace, word :: left, right, by rw [parts, List.cons_append], by simp,
                  someOther, sentence_cons some word, rfl⟩
          · cases rest' with
            | nil =>
                obtain ⟨rfl, rfl⟩ := List.cons_eq_cons.mp isRest
                exact ⟨rfl, [before], next :: more, by simp, by simp, by simp, by simp, rfl⟩
            | cons d ds =>
                obtain ⟨rfl, -⟩ := List.cons_eq_cons.mp isRest
                exact absurd (by simp) notIn

theorem mem_sentence (mem : c ∈ sentence ws) : c = ' ' ∨ ∃ word ∈ ws, c ∈ word := by
  induction ws with
  | nil => cases mem
  | cons word rest ih =>
      by_cases none : rest = []
      · rw [none, sentence_singleton] at mem
        exact .inr ⟨word, List.mem_cons_self, mem⟩
      · rw [sentence_cons none, List.mem_append, List.mem_cons] at mem
        rcases mem with first | isSpace | later
        · exact .inr ⟨word, List.mem_cons_self, first⟩
        · exact .inl isSpace
        · exact (ih later).imp_right fun ⟨other, known, inside⟩ =>
            ⟨other, List.mem_cons_of_mem _ known, inside⟩

/-! ## Collapsing -/

theorem collapseFrom_append (solid : IsSolid word) (nonempty : word ≠ []) (inRun : Bool)
    (text : List Char) : collapseFrom inRun (word ++ text) = word ++ collapseFrom false text := by
  induction word generalizing inRun with
  | nil => exact absurd rfl nonempty
  | cons c cs ih =>
      have notBlank : ¬isBlank c = true := by simp [solid c List.mem_cons_self]
      rw [List.cons_append, collapseFrom, if_neg notBlank, List.cons_append]
      congr 1
      cases cs with
      | nil => rfl
      | cons d ds =>
          exact ih (fun e mem => solid e (List.mem_cons_of_mem _ mem)) (List.cons_ne_nil _ _) false

/-- After a run of blanks, a text that ends with a word collapses to its words. -/
theorem collapseFrom_eq_sentence (ends : ∀ c ∈ text.getLast?, isBlank c = false) :
    collapseFrom true text = sentence (words text) := by
  induction text using word_induction with
  | last word solid =>
      rw [words_of_isSolid solid]
      by_cases empty : word = []
      · simp [empty, collapseFrom]
      · have whole := collapseFrom_append solid empty true []
        rw [List.append_nil] at whole
        simp [whole, collapseFrom, empty]
  | step word c rest solid blank ih =>
      have some : rest ≠ [] := by
        rintro rfl
        have stops := ends c (by simp)
        simp [blank] at stops
      have endsRest : ∀ d ∈ rest.getLast?, isBlank d = false := by
        intro d isLast
        apply ends d
        rw [List.getLast?_append, List.getLast?_cons]
        simp [Option.mem_def.mp isLast]
      have someWord : words rest ≠ [] := by
        intro none
        have blanks := words_eq_nil_iff.mp none _ (List.getLast_mem some)
        rw [endsRest _ (List.getLast?_eq_some_getLast some)] at blanks
        cases blanks
      rw [words_append_cons blank, words_of_isSolid solid]
      by_cases empty : word = []
      · subst empty
        rw [List.nil_append, collapseFrom, if_pos blank, if_pos rfl, ih endsRest]
        simp
      · rw [collapseFrom_append solid empty, collapseFrom, if_pos blank,
          if_neg (by decide), ih endsRest]
        simp [empty, sentence_cons someWord]

/-- Trimmed and collapsed, a text is its words with single spaces between them. -/
theorem collapse_trim (text : List Char) : collapse (trim text) = sentence (words text) := by
  have afterRun : collapse (trim text) = collapseFrom true (trim text) := by
    cases isTrimmed : trim text with
    | nil => rfl
    | cons c cs =>
        have first : (trim text).head? = some c := by rw [isTrimmed, List.head?_cons]
        have starts := head?_trim first
        simp [collapse, collapseFrom, starts]
  rw [afterRun, collapseFrom_eq_sentence fun c isLast => getLast?_trim isLast, words_trim]

theorem collapseFrom_eq_self {inRun : Bool} (spaces : ∀ c ∈ text, isBlank c = true → c = ' ')
    (single : ¬HasRun text) (starts : inRun = true → ∀ c ∈ text.head?, isBlank c = false) :
    collapseFrom inRun text = text := by
  induction text generalizing inRun with
  | nil => rfl
  | cons c cs ih =>
      have later : ¬HasRun cs := fun ⟨d, e, isD, isE, inside⟩ =>
        single ⟨d, e, isD, isE, List.infix_cons inside⟩
      have spacesLater : ∀ d ∈ cs, isBlank d = true → d = ' ' :=
        fun d mem => spaces d (List.mem_cons_of_mem _ mem)
      rw [collapseFrom]
      by_cases blank : isBlank c = true
      · have notInRun : ¬inRun = true := fun inRun => by simp [starts inRun c rfl] at blank
        rw [if_pos blank, if_neg notInRun, ih spacesLater later, spaces c List.mem_cons_self blank]
        intro _ d isNext
        by_contra blankNext
        obtain ⟨ds, rfl⟩ := List.head?_eq_some_iff.mp isNext
        exact single ⟨c, d, blank, by simpa using blankNext, [], ds, rfl⟩
      · rw [if_neg blank, ih spacesLater later (by simp)]

/-- A text whose blanks are single spaces collapses to itself. -/
theorem collapse_eq_self (spaces : ∀ c ∈ text, isBlank c = true → c = ' ')
    (single : ¬HasRun text) : collapse text = text :=
  collapseFrom_eq_self spaces single (by simp)

/-! ## Runs of blanks -/

/-- Two blanks in a row are left by trimming where something stands on either side of them. -/
theorem hasRun_trim_iff : HasRun (trim text) ↔ ∃ before c d after,
    text = before ++ c :: d :: after ∧ isBlank c = true ∧ isBlank d = true ∧
      IsVisible before ∧ IsVisible after := by
  obtain ⟨left, right, whole, blanksLeft, blanksRight⟩ := exists_blanks_trim text
  constructor
  · rintro ⟨c, d, isC, isD, before, after, inside⟩
    have parts : trim text = before ++ c :: d :: after := by simp [← inside]
    refine ⟨left ++ before, c, d, after ++ right, ?_, isC, isD, ?_, ?_⟩
    · rw [whole, parts]
      simp
    · cases before with
      | nil =>
          have first : (trim text).head? = some c := by simp [parts]
          simp [head?_trim first] at isC
      | cons e es =>
          have first : (trim text).head? = some e := by simp [parts]
          exact ⟨e, by simp, head?_trim first⟩
    · rcases List.eq_nil_or_concat after with rfl | ⟨es, e, rfl⟩
      · have final : (trim text).getLast? = some d := by simp [parts]
        simp [getLast?_trim final] at isD
      · have final : (trim text).getLast? = some e := by
          have shape : trim text = (before ++ c :: d :: es) ++ [e] := by simp [parts]
          rw [shape, List.getLast?_concat]
        exact ⟨e, by simp, getLast?_trim final⟩
  · rintro ⟨before, c, d, after, parts, isC, isD, ⟨e, mem, visible⟩, ⟨e', mem', visible'⟩⟩
    refine ⟨c, d, isC, isD, ?_⟩
    -- what is trimmed at the start ends before the run, what is trimmed at the end starts behind it
    have same : before ++ c :: d :: after = left ++ (trim text ++ right) := by rw [← parts, ← whole]
    rcases List.append_eq_append_iff.mp same with ⟨more, isLeft, -⟩ | ⟨more, -, isRest⟩
    · have blank := blanksLeft e (by simp [isLeft, mem])
      simp [visible] at blank
    · have sameRest : trim text ++ right = (more ++ [c, d]) ++ after := by simp [isRest]
      rcases List.append_eq_append_iff.mp sameRest with ⟨others, -, isRight⟩ | ⟨others, isTrim, -⟩
      · have blank := blanksRight e' (by simp [isRight, mem'])
        simp [visible'] at blank
      · exact ⟨more, others, isTrim.symm⟩

/-- In words with spaces between them, a space follows a space where an empty word stands between
others. -/
theorem hasRun_trim_sentence_iff (solid : ∀ word ∈ ws, IsSolid word) :
    HasRun (trim (sentence ws)) ↔ ∃ left right, ws = left ++ [] :: right ∧
      (∃ word ∈ left, word ≠ []) ∧ ∃ word ∈ right, word ≠ [] := by
  rw [hasRun_trim_iff]
  constructor
  · rintro ⟨before, c, d, after, whole, isC, isD, visible, visibleAfter⟩
    obtain ⟨-, left, others, rfl, -, -, rfl, isRest⟩ := exists_sentence_append solid isC whole
    rw [List.forall_mem_append] at solid
    rw [← List.nil_append (d :: after)] at isRest
    obtain ⟨-, gap, right, rfl, some, -, isGap, rfl⟩ :=
      exists_sentence_append solid.2 isD isRest
    rw [List.forall_mem_append] at solid
    obtain rfl : gap = [[]] := by
      cases gap with
      | nil => exact absurd rfl some
      | cons word rest =>
          cases rest with
          | nil => rw [← isGap, sentence_singleton]
          | cons next more => simp [sentence_cons] at isGap
    exact ⟨left, right, rfl, (isVisible_sentence_iff solid.1).mp visible,
      (isVisible_sentence_iff solid.2.2).mp visibleAfter⟩
  · rintro ⟨left, right, rfl, someLeft, someRight⟩
    obtain ⟨solidLeft, -, solidRight⟩ :
        (∀ word ∈ left, IsSolid word) ∧ IsSolid [] ∧ ∀ word ∈ right, IsSolid word := by
      rwa [List.forall_mem_append, List.forall_mem_cons] at solid
    have leftSome : left ≠ [] := by
      rintro rfl
      simp at someLeft
    have rightSome : right ≠ [] := by
      rintro rfl
      simp at someRight
    refine ⟨sentence left, ' ', ' ', sentence right, ?_, by decide, by decide,
      (isVisible_sentence_iff solidLeft).mpr someLeft,
      (isVisible_sentence_iff solidRight).mpr someRight⟩
    rw [sentence_append leftSome (List.cons_ne_nil _ _), sentence_cons rightSome, List.nil_append]

end Eaves.Text
