import Eaves.Answer.Layer
import Eaves.Proofs.Design.Conflicts

/-!
# What a vague prompt is taken for

Where a prompt leaves something open, its layers are built on an assumption, and the
flag recommends it: the zone of the layer, the direction it moves in, and of two layers
in conflict the one that is on top.  A flag about a colour recommends the shade that is
assumed for its own word.  A clause may have several colours, though, and then only the
first of them is the primary colour of its layer.
-/

namespace Eaves

open Outcome

/-- The layer with another primary colour and a name for it. -/
def Layer.inColor (layer : Layer) (asked : Prompt.Asked) : Layer :=
  { layer with coloring := { layer.coloring with primaryName := asked.1, primary := asked.2 } }

/-- A layer is in a colour already where that and its name are its primary ones. -/
theorem Layer.inColor_eq_self_iff {layer : Layer} {asked : Prompt.Asked} :
    layer.inColor asked = layer ↔
      (layer.coloring.primaryName, layer.coloring.primary) = asked := by
  constructor
  · intro same
    exact (congrArg (fun layer => (layer.coloring.primaryName, layer.coloring.primary)) same).symm
  · rintro rfl
    rfl

/-- The colour that a flag about a colour recommends, named by its label in small letters. -/
def Ambiguity.shade? (flag : Ambiguity) : Option Prompt.Asked :=
  match flag.kind, flag.recommended? with
  | .color, some choice => choice.value.color?.map fun color =>
      (String.ofList (Text.lower choice.label.toList), color)
  | _, _ => none

/-- The colour that a flag recommends for the layer with an id. -/
def Ambiguity.shadeFor? (layerId : String) (flag : Ambiguity) : Option Prompt.Asked :=
  if flag.layerId = some layerId then flag.shade? else none

theorem Ambiguity.shade?_of_kind_ne {flag : Ambiguity} (noColor : flag.kind ≠ .color) :
    flag.shade? = none := by
  unfold shade?
  split
  · rename_i isColor _
    exact absurd isColor noColor
  · rfl

theorem Ambiguity.shadeFor?_of_kind_ne {flag : Ambiguity} (noColor : flag.kind ≠ .color)
    (layerId : String) : flag.shadeFor? layerId = none := by
  rw [shadeFor?, shade?_of_kind_ne noColor, ite_self]

theorem Ambiguity.shadeFor?_of_layerId_ne {flag : Ambiguity} {layerId : String}
    (other : flag.layerId ≠ some layerId) : flag.shadeFor? layerId = none :=
  if_neg other

/-- Motion in another direction. -/
def Motion.inDirection (motion : Motion) (direction : Direction) : Motion :=
  { motion with direction := direction, reverse := direction.reversesStrip }

/-- A flag of a prompt with the given layers recommends what is assumed already, or the shade of
one of its vague words. -/
inductive Ambiguity.IsAssumed (layers : List Layer) (flag : Ambiguity) : Prop
  | zone {origin : Prompt.Origin} {feature : Feature} {matching : List Segment} {layer : Layer}
      (mem : layer ∈ layers) (named : flag.layerId = some layer.id)
      (isFlag : flag = Prompt.manySegments origin feature layer.zone matching)
  | color {origin : Prompt.Origin} {vague : Prompt.VagueColor}
      (isFlag : flag = Prompt.whichShade origin vague)
  | direction {origin : Prompt.Origin} {kind : MotionKind} {layer : Layer} {motion : Motion}
      (mem : layer ∈ layers) (named : flag.layerId = some layer.id)
      (moves : layer.motion = some motion) (usual : motion.inDirection .leftToRight = motion)
      (isFlag : flag = Prompt.whichDirection origin kind)
  | effect {origin : Prompt.Origin} (isFlag : flag = Prompt.whichMotion origin)
  | conflict {i j : Nat} (isConflict : flag.IsConflict layers i j)

namespace Prompt

variable {text : String} {clause : List Char} {index : Int} {roofline : Option Roofline}
  {settings : ParserSettings} {understood : Understanding} {intent : Intent}

theorem shade?_whichShade (origin : Origin) (vague : VagueColor) :
    (whichShade origin vague).shade? = some (assumedShade vague) := by
  rfl

/-! ## Colours of a clause -/

theorem mem_replaceNamed (name : String) (entry : Asked) (found : List Asked) :
    entry ∈ replaceNamed name entry found := by
  induction found with
  | nil => exact List.mem_singleton_self entry
  | cons first rest ih =>
      rw [replaceNamed]
      split
      · exact List.mem_cons_self
      · exact List.mem_cons_of_mem _ ih

/-- The shade that is assumed for the last vague word of a clause is one of its colours. -/
theorem mem_asked_of_getLast? {mention : VagueMention}
    (isLast : (vagueMentions clause).getLast? = some mention) :
    assumedShade mention.vague ∈ asked clause := by
  rcases List.getLast?_eq_some_iff.mp isLast with ⟨others, split⟩
  rw [asked, split, List.foldl_append]
  exact mem_replaceNamed _ _ _

/-- Of the colours of a clause, the first one is the primary colour. -/
theorem primary_coloringOf (clause : List Char) (first : Asked) (rest : List Asked) :
    ((coloringOf clause (first :: rest)).primaryName,
      (coloringOf clause (first :: rest)).primary) = first := by
  unfold coloringOf
  dsimp only
  split <;> rfl

/-! ## One clause -/

/-- What a clause is understood as, given its spacing rule. -/
theorem exists_rule_of_understand
    (read : understand clause index roofline settings = .ok understood) :
    ∃ rule, understood.layer.id = layerId index ∧
      understood.layer.zone = (zone ⟨clause, layerId index⟩ roofline settings).1 ∧
      understood.layer.coloring =
        { coloringOf clause (asked clause) with spacing := rule } ∧
      understood.layer.motion = (motion ⟨clause, layerId index⟩).1 ∧
      understood.layer.priority = index ∧
      understood.flags = (zone ⟨clause, layerId index⟩ roofline settings).2 ++
        (coloring ⟨clause, layerId index⟩).2 ++ (motion ⟨clause, layerId index⟩).2 := by
  unfold understand at read
  dsimp only at read
  -- what the zone and the motion are is not looked into
  generalize zone ⟨clause, layerId index⟩ roofline settings = place at read ⊢
  generalize motion ⟨clause, layerId index⟩ = movement at read ⊢
  rcases bind_eq_ok_iff.mp read with ⟨rule, -, shape⟩
  rw [pure_eq_ok_iff] at shape
  subst shape
  exact ⟨rule, rfl, rfl, rfl, rfl, rfl, rfl⟩

/-- What is left open about a clause is about its layer. -/
theorem layerId_eq_of_understand
    (read : understand clause index roofline settings = .ok understood) {flag : Ambiguity}
    (mem : flag ∈ understood.flags) : flag.layerId = some understood.layer.id := by
  have spec := understand_spec read
  rw [spec.1]
  exact (spec.2.2 flag mem).layerId_eq

/-- The flags of a zone are about the segments of a feature that is the zone. -/
theorem exists_manySegments_of_mem_zone {origin : Origin} {flag : Ambiguity}
    (mem : flag ∈ (zone origin roofline settings).2) :
    ∃ feature matching, flag = manySegments origin feature (zone origin roofline settings).1
      matching := by
  unfold zone at mem ⊢
  dsimp only at mem ⊢
  split at mem
  · unfold featureFlags at mem
    split at mem
    · dsimp only at mem
      split at mem
      · rw [List.mem_singleton] at mem
        exact ⟨_, _, mem⟩
      · cases mem
    · cases mem
  · split at mem
    · cases mem
    · split at mem <;> cases mem

/-- The flags of a motion are about its direction, which is the usual one, or about its kind where
there is no motion yet. -/
theorem whichDirection_or_whichMotion_of_mem_motion {origin : Origin} {flag : Ambiguity}
    (mem : flag ∈ (motion origin).2) :
    (∃ kind own, flag = whichDirection origin kind ∧ (motion origin).1 = some own ∧
        own.inDirection .leftToRight = own) ∨
      flag = whichMotion origin ∧ (motion origin).1 = none := by
  unfold motion at mem ⊢
  cases kindIs : motions.first? origin.clause with
  | none =>
      simp only [kindIs] at mem ⊢
      split at mem
      · rw [List.mem_singleton] at mem
        exact .inr ⟨mem, trivial⟩
      · cases mem
  | some kind =>
      simp only [kindIs] at mem ⊢
      cases directionIs : directions.first? origin.clause with
      | some direction =>
          simp only [directionIs] at mem
          cases mem
      | none =>
          simp only [directionIs] at mem ⊢
          rw [List.mem_singleton] at mem
          exact .inl ⟨kind, _, mem, rfl, rfl⟩

/-- What is left open about a clause is what its layer assumes, or a shade. -/
theorem isAssumed_of_understand
    (read : understand clause index roofline settings = .ok understood) {layers : List Layer}
    (inside : understood.layer ∈ layers) {flag : Ambiguity} (mem : flag ∈ understood.flags) :
    flag.IsAssumed layers := by
  obtain ⟨rule, -, sameZone, -, sameMotion, -, flags_eq⟩ := exists_rule_of_understand read
  have named := layerId_eq_of_understand read mem
  rw [flags_eq, List.mem_append, List.mem_append] at mem
  rcases mem with (ofZone | ofColor) | ofMotion
  · obtain ⟨feature, matching, isFlag⟩ := exists_manySegments_of_mem_zone ofZone
    exact .zone inside named (sameZone ▸ isFlag)
  · rcases List.mem_map.mp ofColor with ⟨mention, -, isFlag⟩
    exact .color isFlag.symm
  · rcases whichDirection_or_whichMotion_of_mem_motion ofMotion with
      ⟨kind, own, isFlag, moves, usual⟩ | ⟨isFlag, -⟩
    · exact .direction inside named (sameMotion.trans moves) usual isFlag
    · exact .effect isFlag

/-- The shades that are left open about a clause, in the order of its vague words. -/
theorem filterMap_shadeFor?_understand
    (read : understand clause index roofline settings = .ok understood) :
    understood.flags.filterMap (Ambiguity.shadeFor? understood.layer.id) =
      (vagueMentions clause).map fun mention => assumedShade mention.vague := by
  obtain ⟨rule, sameId, -, -, -, -, flags_eq⟩ := exists_rule_of_understand read
  have noShade : ∀ flags : List Ambiguity, (∀ flag ∈ flags, flag.kind ≠ .color) →
      flags.filterMap (Ambiguity.shadeFor? understood.layer.id) = [] := by
    intro flags noColor
    rw [List.filterMap_eq_nil_iff]
    exact fun flag mem => Ambiguity.shadeFor?_of_kind_ne (noColor flag mem) _
  have ofZone := noShade (zone ⟨clause, layerId index⟩ roofline settings).2 fun flag mem => by
    obtain ⟨feature, matching, rfl⟩ := exists_manySegments_of_mem_zone mem
    rintro ⟨⟩
  have ofMotion := noShade (motion ⟨clause, layerId index⟩).2 fun flag mem => by
    rcases whichDirection_or_whichMotion_of_mem_motion mem with ⟨kind, own, rfl, -⟩ | ⟨rfl, -⟩
    · rintro ⟨⟩
    · rintro ⟨⟩
  have ofColor : (coloring ⟨clause, layerId index⟩).2.filterMap
      (Ambiguity.shadeFor? understood.layer.id) =
        (vagueMentions clause).map fun mention => assumedShade mention.vague := by
    rw [coloring, List.filterMap_map, ← List.filterMap_eq_map]
    apply List.filterMap_congr
    intro mention _
    exact (if_pos (congrArg some sameId.symm)).trans (shade?_whichShade _ _)
  rw [flags_eq, List.filterMap_append, List.filterMap_append, ofZone, ofMotion, ofColor,
    List.nil_append, List.append_nil]

/-! ## All clauses -/

/-- The parts of a parsed prompt: what each of its clauses is understood as, with the flags of the
conflicting pairs behind those of the clauses. -/
structure Understands (text : String) (roofline : Option Roofline) (settings : ParserSettings)
    (intent : Intent) (understood : List Understanding) : Prop where
  related : List.Forall₂
    (fun clause result => understand clause.1 clause.2 roofline settings = .ok result)
    ((clauses (normalize text.toList)).zipIdx) understood
  layers_eq : intent.layers = understood.map Understanding.layer
  flags_eq : intent.ambiguities =
    understood.flatMap Understanding.flags ++ conflicts intent.layers

theorem exists_understands_of_parse (parsed : parse text roofline settings = .ok intent) :
    ∃ understood, Understands text roofline settings intent understood := by
  rcases bind_eq_ok_iff.mp parsed with ⟨understood, read, rest⟩
  rcases bind_eq_ok_iff.mp rest with ⟨confidence, -, shape⟩
  rw [pure_eq_ok_iff] at shape
  subst shape
  exact ⟨understood, understandFrom_eq_ok read, rfl, rfl⟩

namespace Understands

variable {results : List Understanding}

/-- Every part comes from the clause in its place. -/
theorem exists_clause (parts : Understands text roofline settings intent results) {i : Nat}
    (there : results[i]? = some understood) :
    ∃ clause, (clauses (normalize text.toList))[i]? = some clause ∧
      understand clause i roofline settings = .ok understood := by
  obtain ⟨⟨clause, index⟩, isClause, read⟩ := exists_partner_at parts.related.flip there
  rw [List.getElem?_zipIdx, Option.map_eq_some_iff] at isClause
  rcases isClause with ⟨own, isOwn, same⟩
  rw [Prod.mk.injEq, Nat.zero_add] at same
  rcases same with ⟨rfl, rfl⟩
  exact ⟨own, isOwn, read⟩

/-- The shades that a prompt leaves open for a layer are those of its own clause. -/
theorem filterMap_shadeFor? (parts : Understands text roofline settings intent results)
    (apart : (intent.layers.map Layer.id).Nodup) (mem : understood ∈ results) :
    intent.ambiguities.filterMap (Ambiguity.shadeFor? understood.layer.id) =
      understood.flags.filterMap (Ambiguity.shadeFor? understood.layer.id) := by
  rcases List.append_of_mem mem with ⟨earlier, later, split⟩
  rw [parts.layers_eq, split, List.map_map, List.map_append, List.map_cons,
    List.nodup_middle, List.nodup_cons] at apart
  have elsewhere : ∀ other ∈ earlier ++ later,
      other.flags.filterMap (Ambiguity.shadeFor? understood.layer.id) = [] := by
    intro other otherMem
    have otherId : other.layer.id ≠ understood.layer.id := by
      intro sameId
      apply apart.1
      rw [← List.map_append]
      exact List.mem_map.mpr ⟨other, otherMem, sameId⟩
    have inside : other ∈ results := by
      rw [split, List.mem_append, List.mem_cons]
      rcases List.mem_append.mp otherMem with before | behind
      · exact .inl before
      · exact .inr (.inr behind)
    rcases exists_partner parts.related.flip inside with ⟨clause, -, read⟩
    rw [List.filterMap_eq_nil_iff]
    intro flag flagMem
    apply Ambiguity.shadeFor?_of_layerId_ne
    rw [layerId_eq_of_understand read flagMem, Ne, Option.some.injEq]
    exact otherId
  have ofConflicts : (conflicts intent.layers).filterMap
      (Ambiguity.shadeFor? understood.layer.id) = [] := by
    rw [List.filterMap_eq_nil_iff]
    intro flag flagMem
    obtain ⟨i, j, first, second, -, -, -, -, rfl⟩ := mem_conflicts_iff.mp flagMem
    exact Ambiguity.shadeFor?_of_kind_ne (by rintro ⟨⟩) _
  have ofEarlier : earlier.flatMap
      (fun other => other.flags.filterMap (Ambiguity.shadeFor? understood.layer.id)) = [] :=
    List.flatMap_eq_nil_iff.mpr fun other otherMem =>
      elsewhere other (List.mem_append_left _ otherMem)
  have ofLater : later.flatMap
      (fun other => other.flags.filterMap (Ambiguity.shadeFor? understood.layer.id)) = [] :=
    List.flatMap_eq_nil_iff.mpr fun other otherMem =>
      elsewhere other (List.mem_append_right _ otherMem)
  rw [parts.flags_eq, List.filterMap_append, ofConflicts, List.append_nil, split,
    List.filterMap_flatMap, List.flatMap_append, List.flatMap_cons, ofEarlier, ofLater,
    List.nil_append, List.append_nil]

end Understands

/-- Every clause of a prompt is one layer. -/
theorem length_layers_of_parse (parsed : parse text roofline settings = .ok intent) :
    intent.layers.length = (clauses (normalize text.toList)).length := by
  obtain ⟨results, parts⟩ := exists_understands_of_parse parsed
  rw [parts.layers_eq, List.length_map, ← parts.related.length_eq, List.length_zipIdx]

/-- What a prompt leaves open is what its layers assume, or a shade. -/
theorem isAssumed_of_parse (parsed : parse text roofline settings = .ok intent)
    {flag : Ambiguity} (mem : flag ∈ intent.ambiguities) : flag.IsAssumed intent.layers := by
  obtain ⟨results, parts⟩ := exists_understands_of_parse parsed
  rw [parts.flags_eq] at mem
  rcases List.mem_append.mp mem with ofClause | ofConflict
  · rcases List.mem_flatMap.mp ofClause with ⟨result, resultMem, inside⟩
    rcases exists_partner parts.related.flip resultMem with ⟨clause, -, readOne⟩
    exact isAssumed_of_understand readOne (parts.layers_eq ▸ List.mem_map_of_mem resultMem) inside
  · obtain ⟨i, j, isConflict⟩ := mem_conflicts_iff.mp ofConflict
    exact .conflict isConflict

/-- A layer of a prompt: its priority is its place, its colours are those of the clause in that
place, and the shades that are left open for it are those of the vague words of the clause. -/
theorem exists_clause_of_parse (parsed : parse text roofline settings = .ok intent)
    (apart : (intent.layers.map Layer.id).Nodup) {i : Nat} {layer : Layer}
    (there : intent.layers[i]? = some layer) :
    ∃ clause rule, (clauses (normalize text.toList))[i]? = some clause ∧ layer.priority = i ∧
      layer.coloring = { coloringOf clause (asked clause) with spacing := rule } ∧
      intent.ambiguities.filterMap (Ambiguity.shadeFor? layer.id) =
        (vagueMentions clause).map fun mention => assumedShade mention.vague := by
  obtain ⟨results, parts⟩ := exists_understands_of_parse parsed
  rw [parts.layers_eq, List.getElem?_map, Option.map_eq_some_iff] at there
  rcases there with ⟨understood, isResult, rfl⟩
  obtain ⟨clause, isClause, read⟩ := parts.exists_clause isResult
  obtain ⟨rule, -, -, coloring_eq, -, priority_eq, -⟩ := exists_rule_of_understand read
  refine ⟨clause, rule, isClause, priority_eq, coloring_eq, ?_⟩
  rw [parts.filterMap_shadeFor? apart (List.mem_of_getElem? isResult)]
  exact filterMap_shadeFor?_understand read

end Prompt

end Eaves
