import Eaves.Proofs.Outcome
import Eaves.Proofs.Text.Search
import Eaves.Prompt.Clause
import Mathlib.Data.List.Nodup
import Mathlib.Data.List.Pairwise

/-!
# Which colours a clause names

A clause may speak of colours in many places, and one place may lie inside another.  A
sighting counts unless a longer one covers it, or an earlier entry is seen in the very
same place.  Going from a sighting to one that takes its place makes it longer or its
entry earlier, so this ends, and what it ends at counts.  Hence no colour is lost but to
a name that covers it.

A bare vague word is a sighting that no longer one covers, and no other entry has it
among its phrases.  So its colour is one of those named, and the assumed shade is put in
its place.
-/

namespace Eaves.Prompt

open Text

variable {clause : List Char} {sighting other : Sighting}

/-! ## Sightings -/

/-- A place where a phrase for the colour of an entry stands in a clause. -/
def IsSighting (clause : List Char) (sighting : Sighting) : Prop :=
  ∃ named, namedColors[sighting.entry]? = some named ∧ ∃ phrase ∈ named.phrases,
    phrase.toList <+: clause.drop sighting.first ∧
      sighting.stop = sighting.first + phrase.toList.length

theorem toList_ne_nil_of_mem_phrases :
    ∀ named ∈ namedColors, ∀ phrase ∈ named.phrases, phrase.toList ≠ [] := by
  decide +kernel

theorem mem_sightings_iff : sighting ∈ sightings clause ↔ IsSighting clause sighting := by
  constructor
  · intro mem
    obtain ⟨⟨named, entry⟩, isEntry, inside⟩ := List.mem_flatMap.mp mem
    obtain ⟨phrase, isPhrase, seen⟩ := List.mem_flatMap.mp inside
    obtain ⟨first, occurs, rfl⟩ := List.mem_map.mp seen
    have isNamed := List.mem_zipIdx_iff_getElem?.mp isEntry
    have nonempty :=
      toList_ne_nil_of_mem_phrases named (List.mem_of_getElem? isNamed) phrase isPhrase
    exact ⟨named, isNamed, phrase, isPhrase, (mem_occurrences_iff nonempty).mp occurs, rfl⟩
  · rintro ⟨named, isNamed, phrase, isPhrase, occurs, isStop⟩
    have nonempty :=
      toList_ne_nil_of_mem_phrases named (List.mem_of_getElem? isNamed) phrase isPhrase
    refine List.mem_flatMap.mpr ⟨(named, sighting.entry), List.mem_zipIdx_iff_getElem?.mpr isNamed,
      List.mem_flatMap.mpr ⟨phrase, isPhrase, List.mem_map.mpr
        ⟨sighting.first, (mem_occurrences_iff nonempty).mpr occurs, ?_⟩⟩⟩
    rw [← isStop]

theorem IsSighting.length_pos (seen : IsSighting clause sighting) :
    sighting.first < sighting.stop := by
  obtain ⟨named, isNamed, phrase, isPhrase, -, isStop⟩ := seen
  have nonempty := toList_ne_nil_of_mem_phrases named (List.mem_of_getElem? isNamed) phrase isPhrase
  have := List.length_pos_of_ne_nil nonempty
  omega

theorem IsSighting.stop_le (seen : IsSighting clause sighting) :
    sighting.stop ≤ clause.length := by
  have some := seen.length_pos
  obtain ⟨named, -, phrase, -, occurs, isStop⟩ := seen
  have inside := occurs.length_le
  rw [List.length_drop] at inside
  omega

/-! ## Sightings that count -/

/-- A sighting stands inside another one. -/
def Sighting.Within (sighting other : Sighting) : Prop :=
  other.first ≤ sighting.first ∧ sighting.stop ≤ other.stop

theorem shadows_iff : other.shadows sighting = true ↔
    sighting.Within other ∧ (sighting.length < other.length ∨
      other.first = sighting.first ∧ other.stop = sighting.stop ∧
        other.entry < sighting.entry) := by
  rw [Sighting.shadows, Sighting.covers, Bool.and_eq_true, Bool.or_eq_true, decide_eq_true_iff,
    decide_eq_true_iff, decide_eq_true_iff, Sighting.Within]

/-- A sighting counts when no other one takes its place. -/
theorem mem_clearSightings_iff : sighting ∈ clearSightings clause ↔
    IsSighting clause sighting ∧
      ∀ other, IsSighting clause other → other.shadows sighting = false := by
  rw [clearSightings, List.mem_mergeSort, List.mem_filter, mem_sightings_iff]
  simp [mem_sightings_iff]

/-- Every sighting counts, or one that it stands inside does, which is longer or has an earlier
entry for the same place. -/
theorem exists_clear_within (sighting : Sighting) (seen : IsSighting clause sighting) :
    ∃ clear ∈ clearSightings clause, sighting.Within clear ∧
      (sighting.length < clear.length ∨ clear.first = sighting.first ∧
        clear.stop = sighting.stop ∧ clear.entry ≤ sighting.entry) := by
  by_cases shadowed : ∃ other, IsSighting clause other ∧ other.shadows sighting = true
  · obtain ⟨other, otherSeen, shadows⟩ := shadowed
    obtain ⟨within, ahead⟩ := shadows_iff.mp shadows
    have inside := otherSeen.stop_le
    obtain ⟨clear, counts, otherWithin, further⟩ := exists_clear_within other otherSeen
    unfold Sighting.Within Sighting.length at *
    exact ⟨clear, counts, by omega, by omega⟩
  · push Not at shadowed
    refine ⟨sighting, mem_clearSightings_iff.mpr ⟨seen, fun other otherSeen => ?_⟩,
      ⟨le_refl _, le_refl _⟩, .inr ⟨rfl, rfl, le_refl _⟩⟩
    rw [Bool.eq_false_iff]
    exact shadowed other otherSeen
termination_by (clause.length - sighting.length, sighting.entry)
decreasing_by
  simp only [Prod.lex_def]
  unfold Sighting.Within Sighting.length at *
  omega

/-- Sightings that count stand in the order of their first characters. -/
theorem pairwise_clearSightings (clause : List Char) :
    (clearSightings clause).Pairwise fun a b => a.first ≤ b.first := by
  rw [clearSightings]
  refine (List.pairwise_mergeSort ?_ ?_ _).imp fun ordered => ?_
  · intro a b c
    simp only [decide_eq_true_eq]
    omega
  · intro a b
    simp only [Bool.or_eq_true, decide_eq_true_eq]
    omega
  · rw [decide_eq_true_eq] at ordered
    omega

/-- Two sightings that count and have the same first character are of one entry. -/
theorem entry_eq_of_first_eq (counts : sighting ∈ clearSightings clause)
    (otherCounts : other ∈ clearSightings clause) (same : sighting.first = other.first) :
    sighting.entry = other.entry := by
  obtain ⟨seen, clear⟩ := mem_clearSightings_iff.mp counts
  obtain ⟨otherSeen, otherClear⟩ := mem_clearSightings_iff.mp otherCounts
  have notShadowed := clear other otherSeen
  have notShadowing := otherClear sighting seen
  have := seen.length_pos
  have := otherSeen.length_pos
  rw [Bool.eq_false_iff, Ne, shadows_iff] at notShadowed notShadowing
  unfold Sighting.Within Sighting.length at *
  omega

/-! ## One sighting of each entry -/

theorem firstOfEach_sublist (seen : List Nat) (sightings : List Sighting) :
    (firstOfEach seen sightings).Sublist sightings := by
  induction sightings generalizing seen with
  | nil => exact .slnil
  | cons first rest ih =>
      rw [firstOfEach]
      split
      · exact (ih seen).cons first
      · exact (ih _).cons_cons first

theorem entry_notMem_of_mem_firstOfEach {seen : List Nat} {sightings : List Sighting}
    (mem : sighting ∈ firstOfEach seen sightings) : sighting.entry ∉ seen := by
  induction sightings generalizing seen with
  | nil => cases mem
  | cons first rest ih =>
      rw [firstOfEach] at mem
      split at mem
      · exact ih mem
      · rename_i new
        rcases List.mem_cons.mp mem with rfl | later
        · simpa using new
        · exact fun old => ih later (List.mem_cons_of_mem _ old)

theorem pairwise_firstOfEach (seen : List Nat) (sightings : List Sighting) :
    (firstOfEach seen sightings).Pairwise fun a b => a.entry ≠ b.entry := by
  induction sightings generalizing seen with
  | nil => exact .nil
  | cons first rest ih =>
      rw [firstOfEach]
      split
      · exact ih seen
      · refine List.pairwise_cons.mpr ⟨fun later mem => ?_, ih _⟩
        have new := entry_notMem_of_mem_firstOfEach mem
        rw [List.mem_cons, not_or] at new
        exact Ne.symm new.1

/-- An entry that is new is kept where it is seen first. -/
theorem exists_mem_firstOfEach {seen : List Nat} {sightings : List Sighting}
    (ordered : sightings.Pairwise fun a b => a.first ≤ b.first) (mem : sighting ∈ sightings)
    (new : sighting.entry ∉ seen) :
    ∃ first ∈ firstOfEach seen sightings,
      first.entry = sighting.entry ∧ first.first ≤ sighting.first := by
  induction sightings generalizing seen with
  | nil => cases mem
  | cons head rest ih =>
      obtain ⟨before, restOrdered⟩ := List.pairwise_cons.mp ordered
      by_cases isHead : head.entry = sighting.entry
      · refine ⟨head, ?_, isHead, ?_⟩
        · rw [firstOfEach, if_neg (by simpa [isHead] using new)]
          exact List.mem_cons_self
        · rcases List.mem_cons.mp mem with rfl | later
          · exact le_refl _
          · exact before sighting later
      · have later : sighting ∈ rest := by
          rcases List.mem_cons.mp mem with rfl | later
          · exact absurd rfl isHead
          · exact later
        rw [firstOfEach]
        split
        · exact ih restOrdered later new
        · have stillNew : sighting.entry ∉ head.entry :: seen := by
            rw [List.mem_cons, not_or]
            exact ⟨Ne.symm isHead, new⟩
          obtain ⟨first, isFirst, same, le⟩ := ih restOrdered later stillNew
          exact ⟨first, List.mem_cons_of_mem _ isFirst, same, le⟩

/-! ## The colours of a clause -/

/-- A mention is of the colour of an entry. -/
def ColorMention.IsOf (mention : ColorMention) (entry : Nat) : Prop :=
  ∃ phrases, namedColors[entry]? = some ⟨mention.name, mention.color, phrases⟩

theorem nodup_names : (namedColors.map NamedColor.name).Nodup := by
  decide +kernel

/-- Mentions of different entries have different names. -/
theorem ColorMention.IsOf.name_ne {mention later : ColorMention} {entry laterEntry : Nat}
    (isOf : mention.IsOf entry) (laterIsOf : later.IsOf laterEntry) (differ : entry ≠ laterEntry) :
    mention.name ≠ later.name := by
  obtain ⟨phrases, isNamed⟩ := isOf
  obtain ⟨laterPhrases, laterIsNamed⟩ := laterIsOf
  intro same
  have inTable : entry < (namedColors.map NamedColor.name).length := by
    rw [List.length_map]
    exact (List.getElem?_eq_some_iff.mp isNamed).1
  apply differ
  apply (List.getElem?_inj inTable nodup_names).mp
  rw [List.getElem?_map, List.getElem?_map, isNamed, laterIsNamed]
  exact congrArg some same

/-- The mentions of a clause are of the first sightings of each entry, one after the other. -/
theorem forall₂_colors (clause : List Char) :
    List.Forall₂ (fun sighting mention => mention.IsOf sighting.entry ∧
        mention.first = sighting.first ∧ mention.stop = sighting.stop)
      (firstOfEach [] (clearSightings clause)) (colors clause) := by
  have named : ∀ sighting ∈ firstOfEach [] (clearSightings clause),
      ∃ named, namedColors[sighting.entry]? = some named := by
    intro sighting mem
    obtain ⟨⟨named, isNamed, -⟩, -⟩ :=
      mem_clearSightings_iff.mp ((firstOfEach_sublist _ _).subset mem)
    exact ⟨named, isNamed⟩
  rw [colors]
  generalize firstOfEach [] (clearSightings clause) = sightings at named ⊢
  induction sightings with
  | nil => exact .nil
  | cons first rest ih =>
      obtain ⟨own, isOwn⟩ := named first List.mem_cons_self
      rw [List.filterMap_cons, isOwn]
      exact .cons ⟨⟨own.phrases, isOwn⟩, rfl, rfl⟩
        (ih fun sighting mem => named sighting (List.mem_cons_of_mem _ mem))

/-- A mention is at a sighting that counts. -/
theorem exists_clear_of_mem_colors {mention : ColorMention} (mem : mention ∈ colors clause) :
    ∃ sighting ∈ clearSightings clause, mention.IsOf sighting.entry ∧
      mention.first = sighting.first ∧ mention.stop = sighting.stop := by
  obtain ⟨sighting, both, isOf⟩ := Outcome.exists_partner (forall₂_colors clause).flip mem
  exact ⟨sighting, (firstOfEach_sublist _ _).subset (List.of_mem_zip both).2, isOf⟩

/-- The colour of a sighting that counts is mentioned, where it first counts. -/
theorem exists_mention_of_clear (counts : sighting ∈ clearSightings clause) :
    ∃ mention ∈ colors clause, mention.IsOf sighting.entry ∧
      mention.first ≤ sighting.first := by
  obtain ⟨first, isFirst, sameEntry, before⟩ := exists_mem_firstOfEach
    (pairwise_clearSightings clause) counts (List.not_mem_nil (a := sighting.entry))
  obtain ⟨mention, both, isOf, sameFirst, -⟩ :=
    Outcome.exists_partner (forall₂_colors clause) isFirst
  exact ⟨mention, (List.of_mem_zip both).2, sameEntry ▸ isOf, sameFirst ▸ before⟩

theorem nodup_names_colors (clause : List Char) :
    ((colors clause).map ColorMention.name).Nodup := by
  rw [List.nodup_iff_pairwise_ne, List.pairwise_map]
  exact Outcome.pairwise_partners (fun isOf laterIsOf differ => isOf.1.name_ne laterIsOf.1 differ)
    (forall₂_colors clause) (pairwise_firstOfEach [] _)

/-- Mentions stand in the order of their first characters, and no two have the same one. -/
theorem pairwise_colors (clause : List Char) :
    (colors clause).Pairwise fun a b => a.first < b.first := by
  have ordered := (pairwise_clearSightings clause).sublist (firstOfEach_sublist [] _)
  have strict : (firstOfEach [] (clearSightings clause)).Pairwise fun a b => a.first < b.first := by
    apply (ordered.and (pairwise_firstOfEach [] _)).imp_of_mem
    intro a b aMem bMem ⟨le, differ⟩
    refine lt_of_le_of_ne le fun same => differ ?_
    exact entry_eq_of_first_eq ((firstOfEach_sublist _ _).subset aMem)
      ((firstOfEach_sublist _ _).subset bMem) same
  refine Outcome.pairwise_partners (fun isOf laterIsOf before => ?_) (forall₂_colors clause) strict
  rwa [isOf.2.1, laterIsOf.2.1]

/-! ## Vague words -/

/-- A vague word stands bare at a position: no sighting is longer and covers it. -/
def IsBare (clause : List Char) (word : String) (first : Nat) : Prop :=
  word.toList <+: clause.drop first ∧ ∀ sighting, IsSighting clause sighting →
    sighting.first ≤ first → first + word.toList.length ≤ sighting.stop →
      sighting.length ≤ word.toList.length

theorem vague_mem_vagueColors {mention : VagueMention} (mem : mention ∈ vagueMentions clause) :
    mention.vague ∈ vagueColors := by
  rcases List.mem_filterMap.mp mem with ⟨vague, known, used⟩
  rcases Option.map_eq_some_iff.mp used with ⟨first, -, rfl⟩
  exact known

theorem toList_ne_nil_of_mem_vagueColors : ∀ vague ∈ vagueColors, vague.word.toList ≠ [] := by
  decide +kernel

theorem isBare_of_mem_vagueMentions {mention : VagueMention}
    (mem : mention ∈ vagueMentions clause) : IsBare clause mention.vague.word mention.first := by
  obtain ⟨vague, known, used⟩ := List.mem_filterMap.mp mem
  obtain ⟨first, isFirst, rfl⟩ := Option.map_eq_some_iff.mp used
  have occurs := List.mem_of_find?_eq_some isFirst
  have notLonger := List.find?_some isFirst
  refine ⟨(mem_occurrences_iff (toList_ne_nil_of_mem_vagueColors vague known)).mp occurs, ?_⟩
  intro sighting seen starts ends
  by_contra longer
  rw [insideLonger, Bool.not_eq_true', List.any_eq_false] at notLonger
  apply notLonger sighting (mem_sightings_iff.mpr seen)
  rw [Sighting.covers, Bool.and_eq_true, decide_eq_true_iff, decide_eq_true_iff]
  exact ⟨⟨starts, ends⟩, Nat.lt_of_not_le longer⟩

/-- The word of a vague colour is a phrase for one named colour, which is called by it. -/
theorem exists_named_of_mem_vagueColors : ∀ vague ∈ vagueColors,
    (∃ named ∈ namedColors, vague.word ∈ named.phrases) ∧
      ∀ named ∈ namedColors, vague.word ∈ named.phrases → named.name = vague.word := by
  decide +kernel

/-- Where a vague word stands bare, the colour that is called by it is mentioned. -/
theorem exists_mention_of_isBare {vague : VagueColor} (known : vague ∈ vagueColors) {first : Nat}
    (bare : IsBare clause vague.word first) :
    ∃ mention ∈ colors clause, mention.name = vague.word := by
  obtain ⟨⟨named, isNamed, isPhrase⟩, called⟩ := exists_named_of_mem_vagueColors vague known
  obtain ⟨entry, isEntry⟩ := List.mem_iff_getElem?.mp isNamed
  have seen : IsSighting clause ⟨first, first + vague.word.toList.length, entry⟩ :=
    ⟨named, isEntry, vague.word, isPhrase, bare.1, rfl⟩
  obtain ⟨clear, counts, within, ahead⟩ := exists_clear_within _ seen
  obtain ⟨clearSeen, -⟩ := mem_clearSightings_iff.mp counts
  have notLonger := bare.2 clear clearSeen within.1 within.2
  obtain ⟨mention, mem, ⟨phrases, isMention⟩, -⟩ := exists_mention_of_clear counts
  refine ⟨mention, mem, ?_⟩
  -- what counts there has the same place, so it is seen by the word itself
  obtain ⟨own, isOwn, phrase, isOwnPhrase, occurs, isStop⟩ := clearSeen
  unfold Sighting.length at *
  dsimp only at ahead within
  have sameFirst : clear.first = first := by omega
  have sameLength : phrase.toList.length = vague.word.toList.length := by omega
  rw [sameFirst] at occurs
  have samePhrase : phrase = vague.word := String.toList_injective
    ((List.prefix_of_prefix_length_le occurs bare.1 sameLength.le).eq_of_length sameLength)
  rw [isOwn, Option.some.injEq] at isMention
  subst isMention
  exact called _ (List.mem_of_getElem? isOwn) (samePhrase ▸ isOwnPhrase)

/-! ## Shades -/

/-- What a mention asks for: the assumed shade of a vague word, where the colour is called by one,
or else the colour itself. -/
def ColorMention.asked (vagues : List VagueMention) (mention : ColorMention) : Asked :=
  match vagues.find? fun vague => vague.vague.word == mention.name with
  | some vague => assumedShade vague.vague
  | none => (mention.name, mention.color)

theorem replaceNamed_eq_map {name : String} {entry : Asked} {found : List Asked}
    (once : found.Pairwise fun a b => ¬(a.1 = name ∧ b.1 = name))
    (there : ∃ asked ∈ found, asked.1 = name) :
    replaceNamed name entry found =
      found.map fun asked => if asked.1 = name then entry else asked := by
  induction found with
  | nil =>
      obtain ⟨asked, mem, -⟩ := there
      cases mem
  | cons first rest ih =>
      obtain ⟨apart, restOnce⟩ := List.pairwise_cons.mp once
      rw [replaceNamed, List.map_cons]
      by_cases isFirst : first.1 = name
      · have others : rest.map (fun asked => if asked.1 = name then entry else asked) = rest := by
          rw [List.map_congr_left (g := id), List.map_id]
          intro asked mem
          exact if_neg fun isName => apart asked mem ⟨isFirst, isName⟩
        rw [if_pos (beq_iff_eq.mpr isFirst), if_pos isFirst, others]
      · have later : ∃ asked ∈ rest, asked.1 = name := by
          obtain ⟨asked, mem, isName⟩ := there
          rcases List.mem_cons.mp mem with rfl | later
          · exact absurd isName isFirst
          · exact ⟨asked, later, isName⟩
        rw [if_neg (by simpa using isFirst), if_neg isFirst, ih restOnce later]

theorem nodup_words : (vagueColors.map VagueColor.word).Nodup := by
  decide +kernel

/-- Each vague word is used once. -/
theorem nodup_words_vagueMentions (clause : List Char) :
    ((vagueMentions clause).map fun mention => mention.vague.word).Nodup := by
  have used : ((vagueMentions clause).map VagueMention.vague).Sublist vagueColors := by
    rw [vagueMentions]
    induction vagueColors with
    | nil => exact .slnil
    | cons vague rest ih =>
        rw [List.filterMap_cons]
        split
        · exact ih.cons vague
        · rename_i mention isUse
          obtain ⟨first, -, rfl⟩ := Option.map_eq_some_iff.mp isUse
          exact ih.cons_cons vague
  have words := nodup_words.sublist (used.map VagueColor.word)
  rwa [List.map_map] at words

/-- No shade that is assumed is called by a vague word. -/
theorem assumedShade_ne_word : ∀ vague ∈ vagueColors, ∀ other ∈ vagueColors,
    (assumedShade vague).1 ≠ other.word := by
  decide +kernel

section Shades

variable {vagues : List VagueMention} {last : VagueMention} {mention : ColorMention}

/-- The shade of one word more is asked for where the colour is called by that word. -/
theorem asked_append (new : ∀ vague ∈ vagues, vague.vague.word ≠ last.vague.word) :
    mention.asked (vagues ++ [last]) =
      if mention.name = last.vague.word then assumedShade last.vague else mention.asked vagues := by
  unfold ColorMention.asked
  rw [List.find?_append]
  by_cases isLast : mention.name = last.vague.word
  · have notEarlier : vagues.find? (fun vague => vague.vague.word == mention.name) = none := by
      rw [List.find?_eq_none]
      intro vague mem
      simpa [isLast] using new vague mem
    have isFound : [last].find? (fun vague => vague.vague.word == mention.name) = some last := by
      simp [isLast]
    rw [notEarlier, isFound, if_pos isLast]
    rfl
  · have notLast : [last].find? (fun vague => vague.vague.word == mention.name) = none := by
      simp [Ne.symm isLast]
    rw [notLast, Option.or_none, if_neg isLast]

/-- Shades change no other word: what is called by it stays so, and nothing else becomes so. -/
theorem asked_fst_eq_iff (known : ∀ vague ∈ vagues, vague.vague ∈ vagueColors)
    (lastKnown : last.vague ∈ vagueColors)
    (new : ∀ vague ∈ vagues, vague.vague.word ≠ last.vague.word) :
    (mention.asked vagues).1 = last.vague.word ↔ mention.name = last.vague.word := by
  unfold ColorMention.asked
  split
  · rename_i vague isFound
    have mem := List.mem_of_find?_eq_some isFound
    have isName : vague.vague.word = mention.name := by simpa using List.find?_some isFound
    exact iff_of_false (assumedShade_ne_word _ (known vague mem) _ lastKnown)
      (isName ▸ new vague mem)
  · rfl

/-- Taking vague words for their shades, one word after the other, puts each shade in the place of
the colour that is called by the word. -/
theorem foldl_replaceNamed {mentions : List ColorMention}
    (apart : (mentions.map ColorMention.name).Nodup)
    (distinct : (vagues.map fun vague => vague.vague.word).Nodup)
    (known : ∀ vague ∈ vagues, vague.vague ∈ vagueColors)
    (there : ∀ vague ∈ vagues, ∃ mention ∈ mentions, mention.name = vague.vague.word) :
    vagues.foldl (fun found vague =>
        replaceNamed vague.vague.word (assumedShade vague.vague) found)
      (mentions.map fun mention => (mention.name, mention.color)) =
        mentions.map (ColorMention.asked vagues) := by
  induction vagues using List.reverseRecOn with
  | nil => rfl
  | append_singleton earlier last ih =>
      rw [List.forall_mem_append, List.forall_mem_singleton] at known there
      rw [List.map_append, List.map_singleton, List.nodup_append] at distinct
      obtain ⟨earlierDistinct, -, lastNew⟩ := distinct
      have new : ∀ vague ∈ earlier, vague.vague.word ≠ last.vague.word := fun vague mem =>
        lastNew _ (List.mem_map_of_mem mem) _ (List.mem_singleton_self _)
      have called (mention : ColorMention) : (mention.asked earlier).1 = last.vague.word ↔
          mention.name = last.vague.word := asked_fst_eq_iff known.1 known.2 new
      have once : (mentions.map (ColorMention.asked earlier)).Pairwise
          fun a b => ¬(a.1 = last.vague.word ∧ b.1 = last.vague.word) := by
        rw [List.nodup_iff_pairwise_ne, List.pairwise_map] at apart
        rw [List.pairwise_map]
        refine apart.imp fun differ both => differ ?_
        rw [(called _).mp both.1, (called _).mp both.2]
      have lastThere : ∃ asked ∈ mentions.map (ColorMention.asked earlier),
          asked.1 = last.vague.word := by
        obtain ⟨mention, mem, isName⟩ := there.2
        exact ⟨mention.asked earlier, List.mem_map_of_mem mem, (called mention).mpr isName⟩
      rw [List.foldl_append, ih earlierDistinct known.1 there.1, List.foldl_cons, List.foldl_nil,
        replaceNamed_eq_map once lastThere, List.map_map]
      apply List.map_congr_left
      intro mention _
      rw [Function.comp_apply, asked_append new]
      exact if_congr (called mention) rfl rfl

end Shades

/-- The colours of a clause have names of their own and stand in order.  Each is seen where it is
mentioned, and no longer sighting covers it there; and every sighting stands inside one whose colour
is mentioned, which is itself, or is longer, or has an earlier entry for the same place.  A vague
word is used where it stands bare, and a colour is called by it; so its shade is asked for in the
place of that colour, and nothing is added. -/
theorem longest_names_are_mentioned (clause : List Char) :
    ((colors clause).map ColorMention.name).Nodup ∧
    ((colors clause).Pairwise fun a b => a.first < b.first) ∧
    (∀ mention ∈ colors clause, ∃ sighting, IsSighting clause sighting ∧
      mention.IsOf sighting.entry ∧ mention.first = sighting.first ∧ mention.stop = sighting.stop ∧
      ∀ other, IsSighting clause other → sighting.Within other → other.length ≤ sighting.length) ∧
    (∀ sighting, IsSighting clause sighting → ∃ other, IsSighting clause other ∧
      sighting.Within other ∧
      (sighting.length < other.length ∨ other.first = sighting.first ∧
        other.stop = sighting.stop ∧ other.entry ≤ sighting.entry) ∧
      ∃ mention ∈ colors clause, mention.IsOf other.entry ∧ mention.first ≤ other.first) ∧
    (∀ vague ∈ vagueMentions clause, vague.vague ∈ vagueColors ∧
      IsBare clause vague.vague.word vague.first ∧
      ∃ mention ∈ colors clause, mention.name = vague.vague.word) ∧
    asked clause = (colors clause).map (ColorMention.asked (vagueMentions clause)) := by
  have called : ∀ vague ∈ vagueMentions clause,
      ∃ mention ∈ colors clause, mention.name = vague.vague.word := fun vague mem =>
    exists_mention_of_isBare (vague_mem_vagueColors mem) (isBare_of_mem_vagueMentions mem)
  refine ⟨nodup_names_colors clause, pairwise_colors clause, ?_, ?_, ?_, ?_⟩
  · intro mention mem
    obtain ⟨sighting, counts, isOf, sameFirst, sameStop⟩ := exists_clear_of_mem_colors mem
    obtain ⟨seen, clear⟩ := mem_clearSightings_iff.mp counts
    refine ⟨sighting, seen, isOf, sameFirst, sameStop, fun other otherSeen within => ?_⟩
    by_contra longer
    have shadows := shadows_iff.mpr ⟨within, .inl (Nat.lt_of_not_le longer)⟩
    rw [clear other otherSeen] at shadows
    cases shadows
  · intro sighting seen
    obtain ⟨other, counts, within, ahead⟩ := exists_clear_within sighting seen
    exact ⟨other, (mem_clearSightings_iff.mp counts).1, within, ahead,
      exists_mention_of_clear counts⟩
  · intro vague mem
    exact ⟨vague_mem_vagueColors mem, isBare_of_mem_vagueMentions mem, called vague mem⟩
  · exact foldl_replaceNamed (nodup_names_colors clause) (nodup_words_vagueMentions clause)
      (fun vague mem => vague_mem_vagueColors mem) called

end Eaves.Prompt
