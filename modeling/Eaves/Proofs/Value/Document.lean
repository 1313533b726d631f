import Eaves.Proofs.Value.Scanning

/-!
# Documents that were written

What is read of a document is the value it was written from, up to what a document cannot
say: a number without digits is written as nothing where only finite ones are, and plain
data holds no terms.  A document can say anything else, as long as no object has a key
twice, since reading keeps the last value of a key, and every number is one of the format.

What a document keeps of a value is plain data, has the same whole numbers and is written
as the same document.  So reading a document and writing what was read changes nothing
more.
-/

namespace Eaves

/-! ## What a document keeps -/

mutual

/-- What a document of finite numbers keeps of plain data. -/
def Value.written : Value → Value
  | .float x => if x.isFinite then .float x else .null
  | .list items => .list (writtenItems items)
  | .object entries => .object (writtenEntries entries)
  | .bool truth => .bool truth
  | .int n => .int n
  | .text s => .text s
  | _ => .null

/-- What is kept of every item. -/
def writtenItems : List Value → List Value
  | [] => []
  | item :: rest => item.written :: writtenItems rest

/-- What is kept of every entry's value. -/
def writtenEntries : List (String × Value) → List (String × Value)
  | [] => []
  | (key, value) :: rest => (key, value.written) :: writtenEntries rest

end

namespace Value

@[simp]
theorem written_null : null.written = null :=
  rfl

@[simp]
theorem written_bool (truth : Bool) : (bool truth).written = bool truth :=
  rfl

@[simp]
theorem written_int (n : Int) : (int n).written = int n :=
  rfl

@[simp]
theorem written_text (s : String) : (text s).written = text s :=
  rfl

@[simp]
theorem written_float (x : Number.Binary64) :
    (float x).written = if x.isFinite then .float x else .null :=
  rfl

@[simp]
theorem written_list (items : List Value) : (list items).written = list (writtenItems items) :=
  rfl

@[simp]
theorem written_object (entries : Entries) :
    (object entries).written = object (writtenEntries entries) :=
  rfl

end Value

@[simp]
theorem writtenItems_nil : writtenItems [] = [] :=
  rfl

@[simp]
theorem writtenItems_cons (item : Value) (rest : List Value) :
    writtenItems (item :: rest) = item.written :: writtenItems rest :=
  rfl

@[simp]
theorem writtenEntries_nil : writtenEntries [] = [] :=
  rfl

@[simp]
theorem writtenEntries_cons (key : String) (value : Value) (rest : Entries) :
    writtenEntries ((key, value) :: rest) = (key, value.written) :: writtenEntries rest :=
  rfl

mutual

/-- Data that documents can hold: every number is one of the format, and no object has a key
twice. -/
def Value.IsHeld : Value → Prop
  | .float x => x.IsRounded
  | .list items => AreHeld items
  | .object entries => (entries.map Prod.fst).Nodup ∧ EntriesHeld entries
  | _ => True

/-- Every item can be held. -/
def AreHeld : List Value → Prop
  | [] => True
  | item :: rest => item.IsHeld ∧ AreHeld rest

/-- Every entry's value can be held. -/
def EntriesHeld : List (String × Value) → Prop
  | [] => True
  | (_, value) :: rest => value.IsHeld ∧ EntriesHeld rest

end

namespace Value

@[simp]
theorem isHeld_null : null.IsHeld ↔ True :=
  Iff.rfl

@[simp]
theorem isHeld_bool (truth : Bool) : (bool truth).IsHeld ↔ True :=
  Iff.rfl

@[simp]
theorem isHeld_int (n : Int) : (int n).IsHeld ↔ True :=
  Iff.rfl

@[simp]
theorem isHeld_text (s : String) : (text s).IsHeld ↔ True :=
  Iff.rfl

@[simp]
theorem isHeld_float (x : Number.Binary64) : (float x).IsHeld ↔ x.IsRounded :=
  Iff.rfl

@[simp]
theorem isHeld_list (items : List Value) : (list items).IsHeld ↔ AreHeld items :=
  Iff.rfl

@[simp]
theorem isHeld_object (entries : Entries) :
    (object entries).IsHeld ↔ (entries.map Prod.fst).Nodup ∧ EntriesHeld entries :=
  Iff.rfl

end Value

@[simp]
theorem entriesHeld_nil : EntriesHeld [] ↔ True :=
  Iff.rfl

@[simp]
theorem entriesHeld_cons (key : String) (value : Value) (rest : Entries) :
    EntriesHeld ((key, value) :: rest) ↔ value.IsHeld ∧ EntriesHeld rest :=
  Iff.rfl

namespace Json

open Number (Binary64)

variable {style : Style} {reading : Reading} {frames : List Frame} {cs rest : List Char}

/-! ## Objects without a repeated key -/

theorem put_of_notMem {entries : Entries} {key : String} (isNew : key ∉ entries.map Prod.fst)
    (value : Value) : entries.put key value = entries ++ [(key, value)] := by
  unfold Entries.put
  rw [if_neg]
  intro present
  rcases List.any_eq_true.mp present with ⟨entry, mem, same⟩
  exact isNew (List.mem_map.mpr ⟨entry, mem, beq_iff_eq.mp same⟩)

/-- Entries with different keys are kept as they are. -/
theorem closeEntries_reverse (entries : Entries) (nodup : (entries.map Prod.fst).Nodup) :
    closeEntries entries.reverse = entries := by
  have kept : ∀ front : Entries, ((front ++ entries).map Prod.fst).Nodup →
      entries.foldl (fun kept entry => Entries.put kept entry.1 entry.2) front =
        front ++ entries := by
    clear nodup
    induction entries with
    | nil => exact fun front _ => (List.append_nil front).symm
    | cons entry entries ih =>
        intro front nodup
        have isNew : entry.1 ∉ front.map Prod.fst := by
          intro mem
          rw [List.map_append, List.map_cons, List.nodup_append] at nodup
          exact nodup.2.2 _ mem _ List.mem_cons_self rfl
        rw [List.foldl_cons, put_of_notMem isNew]
        have moved : front ++ [(entry.1, entry.2)] ++ entries = front ++ entry :: entries := by
          rw [List.append_assoc, List.singleton_append]
        rw [ih _ (by rwa [moved]), moved]
  rw [closeEntries, List.reverse_reverse]
  exact kept [] nodup

theorem map_fst_writtenEntries (entries : Entries) :
    (writtenEntries entries).map Prod.fst = entries.map Prod.fst := by
  induction entries with
  | nil => rfl
  | cons entry entries ih => rw [writtenEntries, List.map_cons, List.map_cons, ih]

/-! ## Names and numbers -/

/-- Where a value is expected; in front of the first member of an array it may as well end. -/
def WantsValue (expecting : Expecting) : Prop :=
  expecting = .value ∨ expecting = .valueOrClose

/-- A document style that the records are written in: characters as they are, and finite numbers
only. -/
structure IsLossless (style : Style) : Prop where
  notAscii : style.asciiOnly = false
  finiteOnly : style.finiteOnly = true

theorem isBareChar_of_numeral {c : Char} (allowed : c.isDigit ∨ c ∈ ['.', 'e', '+', '-']) :
    isBareChar c = true := by
  rcases allowed with latin | mark
  · have bounds := Text.toNat_of_isDigit latin
    have table : ∀ n < 58, 48 ≤ n → isBareChar (Char.ofNat n) = true := by decide
    rw [← Char.ofNat_toNat c]
    exact table c.toNat (by omega) bounds.1
  · have table : ['.', 'e', '+', '-'].all isBareChar = true := rfl
    exact List.all_eq_true.mp table c mark

/-- A name or a number that is written is delivered. -/
theorem readFrom_name {expecting : Expecting} (wants : WantsValue expecting) {chars : List Char}
    (notNil : chars ≠ []) (bare : ∀ c ∈ chars, isBareChar c = true) {value : Value}
    (means : bare? chars = some value) (ends : EndsBare rest) :
    readFrom ⟨expecting, frames⟩ .between (chars ++ rest) =
      (deliver value frames).bind (readFrom · .between rest) := by
  have accepted : accept ⟨expecting, frames⟩ (.bare chars) = deliver value frames := by
    rcases wants with rfl | rfl
    · simp only [accept, means]
    · simp only [accept, means]
  rw [readFrom_bare notNil bare ends, accepted]

theorem readFrom_null {expecting : Expecting} (wants : WantsValue expecting)
    (ends : EndsBare rest) :
    readFrom ⟨expecting, frames⟩ .between ("null".toList ++ rest) =
      (deliver .null frames).bind (readFrom · .between rest) :=
  readFrom_name wants (by decide) (List.all_eq_true.mp rfl) rfl ends

theorem readFrom_bool {expecting : Expecting} (wants : WantsValue expecting) (truth : Bool)
    (ends : EndsBare rest) :
    readFrom ⟨expecting, frames⟩ .between
        ((if truth then "true".toList else "false".toList) ++ rest) =
      (deliver (.bool truth) frames).bind (readFrom · .between rest) := by
  cases truth
  · exact readFrom_name wants (by decide) (List.all_eq_true.mp rfl) rfl ends
  · exact readFrom_name wants (by decide) (List.all_eq_true.mp rfl) rfl ends

theorem readFrom_numeral {expecting : Expecting} (wants : WantsValue expecting)
    {chars : List Char} (isNumeral : IsNumeral chars) {value : Value}
    (means : number? chars = some value) (ends : EndsBare rest) :
    readFrom ⟨expecting, frames⟩ .between (chars ++ rest) =
      (deliver value frames).bind (readFrom · .between rest) := by
  have notNil : chars ≠ [] := by
    rcases isNumeral.signed with ⟨negative, c, others, rfl, -⟩
    simp
  rw [← bare?_of_isNumeral isNumeral] at means
  exact readFrom_name wants notNil (fun c mem => isBareChar_of_numeral (isNumeral.allowed c mem))
    means ends

/-- A number that is written is delivered, as nothing where it has no digits. -/
theorem readFrom_writeFloat (lossless : IsLossless style) {expecting : Expecting}
    (wants : WantsValue expecting) {x : Binary64} (rounded : x.IsRounded) (ends : EndsBare rest) :
    readFrom ⟨expecting, frames⟩ .between (writeFloat style x ++ rest) =
      (deliver (Value.float x).written frames).bind (readFrom · .between rest) := by
  rw [Value.written]
  cases x with
  | finite value =>
      rcases number?_shortest (x := .finite value) rfl rounded with ⟨isNumeral, means⟩
      exact readFrom_numeral wants isNumeral means ends
  | negativeZero =>
      rcases number?_shortest (x := .negativeZero) rfl rounded with ⟨isNumeral, means⟩
      exact readFrom_numeral wants isNumeral means ends
  | infinite negative =>
      rw [writeFloat, lossless.finiteOnly]
      exact readFrom_null wants ends
  | nan =>
      rw [writeFloat, lossless.finiteOnly]
      exact readFrom_null wants ends

/-! ## Containers -/

theorem intercalate_cons (separator first : List Char) (others : List (List Char)) :
    separator.intercalate (first :: others) = first ++ others.flatMap (separator ++ ·) := by
  induction others generalizing first with
  | nil => simp [List.intercalate]
  | cons other others ih =>
      have next := ih other
      simp only [List.intercalate, List.intersperse_cons_cons, List.flatten_cons] at next ⊢
      rw [next, List.flatMap_cons, List.append_assoc]

/-- What separates members is a comma. -/
theorem readFrom_separator (style : Style) (depth : Nat) :
    readFrom reading .between (separator style depth ++ cs) =
      (accept reading .comma).bind (readFrom · .between cs) := by
  have comma (more : List Char) : readFrom reading .between (',' :: more) =
      (accept reading .comma).bind (readFrom · .between more) :=
    readFrom_mark .comma rfl
  unfold separator
  split
  · rw [List.cons_append, comma]
    congr 1
    funext reached
    exact readFrom_lineBreak style depth
  · change readFrom reading .between (',' :: ' ' :: cs) = _
    rw [comma]
    congr 1
    funext reached
    exact readFrom_gap rfl

theorem endsBare_separators (style : Style) (depth : Nat) (members : List (List Char))
    (ends : EndsBare rest) :
    EndsBare (members.flatMap (separator style depth ++ ·) ++ rest) := by
  cases members with
  | nil => exact ends
  | cons member members =>
      intro c isHead
      have shape : ∃ others, separator style depth = ',' :: others := by
        unfold separator
        split <;> exact ⟨_, rfl⟩
      rcases shape with ⟨others, shape⟩
      rw [List.flatMap_cons, shape] at isHead
      cases isHead
      rfl

theorem endsBare_lineBreak (style : Style) (depth : Nat) (ends : EndsBare rest) :
    EndsBare (lineBreak style depth ++ rest) := by
  unfold lineBreak
  split
  · intro c isHead
    cases isHead
    rfl
  · exact ends

/-- The members of a container that is not empty, between its marks. -/
theorem enclose_cons (style : Style) (depth : Nat) (first last : Char) (member : List Char)
    (members : List (List Char)) :
    enclose style depth first last (member :: members) ++ rest =
      first :: (lineBreak style (depth + 1) ++ (member ++
        (members.flatMap (separator style (depth + 1) ++ ·) ++
          (lineBreak style depth ++ last :: rest)))) := by
  rw [enclose, if_neg (by simp), intercalate_cons]
  simp only [List.cons_append, List.append_assoc, List.nil_append]

theorem readFrom_openArray {expecting : Expecting} (wants : WantsValue expecting) :
    readFrom ⟨expecting, frames⟩ .between ('[' :: cs) =
      readFrom ⟨.valueOrClose, .array [] :: frames⟩ .between cs := by
  rw [readFrom_mark .openArray rfl]
  rcases wants with rfl | rfl <;> rfl

theorem readFrom_closeArray {expecting : Expecting}
    (mayClose : expecting = .commaOrClose ∨ expecting = .valueOrClose) (items : List Value) :
    readFrom ⟨expecting, .array items :: frames⟩ .between (']' :: cs) =
      (deliver (.list items.reverse) frames).bind (readFrom · .between cs) := by
  rw [readFrom_mark .closeArray rfl]
  rcases mayClose with rfl | rfl <;> rfl

theorem readFrom_openObject {expecting : Expecting} (wants : WantsValue expecting) :
    readFrom ⟨expecting, frames⟩ .between ('\x7b' :: cs) =
      readFrom ⟨.keyOrClose, .object [] :: frames⟩ .between cs := by
  rw [readFrom_mark .openObject rfl]
  rcases wants with rfl | rfl <;> rfl

theorem readFrom_closeObject {expecting : Expecting}
    (mayClose : expecting = .commaOrClose ∨ expecting = .keyOrClose)
    (entries : List (String × Value)) :
    readFrom ⟨expecting, .object entries :: frames⟩ .between ('\x7d' :: cs) =
      (deliver (.object (closeEntries entries)) frames).bind (readFrom · .between cs) := by
  rw [readFrom_mark .closeObject rfl]
  rcases mayClose with rfl | rfl <;> rfl

/-- What is written in front of the value of a key. -/
theorem readFrom_key (lossless : IsLossless style) {expecting : Expecting}
    (wantsKey : expecting = .key ∨ expecting = .keyOrClose) (before : List (String × Value))
    (key : String) :
    readFrom ⟨expecting, .object before :: frames⟩ .between
        (writeText style key ++ [':', ' '] ++ cs) =
      readFrom ⟨.value, .member before key :: frames⟩ .between cs := by
  have colon : readFrom ⟨.colon, .member before key :: frames⟩ .between (':' :: ' ' :: cs) =
      readFrom ⟨.value, .member before key :: frames⟩ .between cs := by
    rw [readFrom_mark .colon rfl]
    exact readFrom_gap rfl
  rw [List.append_assoc, readFrom_text lossless.notAscii]
  rcases wantsKey with rfl | rfl <;> exact colon

/-! ## Values -/

mutual

/-- What is written of a value is read as what a document keeps of it, and delivered where the value
was expected. -/
theorem readFrom_write (lossless : IsLossless style) :
    ∀ (value : Value), value.IsHeld → ∀ {expecting : Expecting}, WantsValue expecting →
      ∀ (frames : List Frame) (depth : Nat) {rest : List Char}, EndsBare rest →
        readFrom ⟨expecting, frames⟩ .between (write style depth value ++ rest) =
          (deliver value.written frames).bind (readFrom · .between rest)
  | .bool truth, _, _, wants, _, _, _, ends => readFrom_bool wants truth ends
  | .int n, _, _, wants, _, _, _, ends =>
      readFrom_numeral wants (number?_toString n).1 (number?_toString n).2 ends
  | .float _, held, _, wants, _, _, _, ends => readFrom_writeFloat lossless wants held ends
  | .text s, _, expecting, wants, frames, _, rest, ends => by
      rw [write, readFrom_text lossless.notAscii]
      rcases wants with rfl | rfl <;> rfl
  | .list [], _, _, wants, frames, _, rest, _ => by
      change readFrom _ .between ('[' :: ']' :: rest) = _
      rw [readFrom_openArray wants, readFrom_closeArray (.inr rfl)]
      rfl
  | .list (item :: items), held, _, wants, frames, depth, rest, _ => by
      have endsItems : EndsBare (lineBreak style depth ++ ']' :: rest) :=
        endsBare_lineBreak style depth fun c isHead => by cases isHead; rfl
      have one := readFrom_write lossless item held.1 (.inr rfl) (.array [] :: frames) (depth + 1)
        (endsBare_separators style (depth + 1) (writeItems style (depth + 1) items) endsItems)
      have others := readFrom_moreItems lossless items held.2 [item.written] frames (depth + 1)
        endsItems
      rw [write, writeItems, enclose_cons, readFrom_openArray wants, readFrom_lineBreak]
      refine one.trans (others.trans ?_)
      rw [readFrom_lineBreak, readFrom_closeArray (.inl rfl), List.reverse_append,
        List.reverse_reverse]
      rfl
  | .object [], _, _, wants, frames, _, rest, _ => by
      change readFrom _ .between ('\x7b' :: '\x7d' :: rest) = _
      rw [readFrom_openObject wants, readFrom_closeObject (.inr rfl)]
      rfl
  | .object ((key, value) :: entries), held, _, wants, frames, depth, rest, _ => by
      have endsEntries : EndsBare (lineBreak style depth ++ '\x7d' :: rest) :=
        endsBare_lineBreak style depth fun c isHead => by cases isHead; rfl
      have one := readFrom_write lossless value held.2.1 (.inl rfl) (.member [] key :: frames)
        (depth + 1)
        (endsBare_separators style (depth + 1) (writeEntries style (depth + 1) entries) endsEntries)
      have others := readFrom_moreEntries lossless entries held.2.2 [(key, value.written)] frames
        (depth + 1) endsEntries
      have kept := closeEntries_reverse (writtenEntries ((key, value) :: entries))
        (by rw [map_fst_writtenEntries]; exact held.1)
      rw [write, writeEntries, enclose_cons, readFrom_openObject wants, readFrom_lineBreak,
        List.append_assoc (writeText style key ++ [':', ' ']), readFrom_key lossless (.inr rfl)]
      refine one.trans (others.trans ?_)
      rw [writtenEntries, List.reverse_cons] at kept
      rw [readFrom_lineBreak, readFrom_closeObject (.inl rfl), kept]
      rfl
  | .null, _, _, wants, _, _, _, ends
  | .date _, _, _, wants, _, _, _, ends
  | .color _, _, _, wants, _, _, _, ends
  | .zone _, _, _, wants, _, _, _, ends
  | .spacing _, _, _, wants, _, _, _, ends
  | .direction _, _, _, wants, _, _, _, ends
  | .motion _, _, _, wants, _, _, _, ends
  | .speed _, _, _, wants, _, _, _, ends => readFrom_null wants ends

/-- The items of a list after its first one are read one by one. -/
theorem readFrom_moreItems (lossless : IsLossless style) :
    ∀ (items : List Value), AreHeld items → ∀ (before : List Value) (frames : List Frame)
      (depth : Nat) {rest : List Char}, EndsBare rest →
        readFrom ⟨.commaOrClose, .array before :: frames⟩ .between
            ((writeItems style depth items).flatMap (separator style depth ++ ·) ++ rest) =
          readFrom ⟨.commaOrClose, .array ((writtenItems items).reverse ++ before) :: frames⟩
            .between rest
  | [], _, _, _, _, _, _ => rfl
  | item :: items, held, before, frames, depth, rest, ends => by
      have endsItem := endsBare_separators style depth (writeItems style depth items) ends
      have others := readFrom_moreItems lossless items held.2 (item.written :: before) frames depth
        ends
      have one := readFrom_write lossless item held.1 (.inl rfl) (.array before :: frames) depth
        endsItem
      rw [writeItems, List.flatMap_cons, List.append_assoc, List.append_assoc, readFrom_separator]
      refine one.trans ?_
      rw [writtenItems, List.reverse_cons, List.append_assoc]
      exact others

/-- The entries of an object after its first one are read one by one. -/
theorem readFrom_moreEntries (lossless : IsLossless style) :
    ∀ (entries : List (String × Value)), EntriesHeld entries →
      ∀ (before : List (String × Value)) (frames : List Frame)
        (depth : Nat) {rest : List Char}, EndsBare rest →
        readFrom ⟨.commaOrClose, .object before :: frames⟩ .between
            ((writeEntries style depth entries).flatMap (separator style depth ++ ·) ++ rest) =
          readFrom ⟨.commaOrClose, .object ((writtenEntries entries).reverse ++ before) :: frames⟩
            .between rest
  | [], _, _, _, _, _, _ => rfl
  | (key, value) :: entries, held, before, frames, depth, rest, ends => by
      have endsEntry := endsBare_separators style depth (writeEntries style depth entries) ends
      have one := readFrom_write lossless value held.1 (.inl rfl) (.member before key :: frames)
        depth endsEntry
      have others := readFrom_moreEntries lossless entries held.2 ((key, value.written) :: before)
        frames depth ends
      rw [writeEntries, List.flatMap_cons, List.append_assoc, List.append_assoc, readFrom_separator]
      change readFrom ⟨.key, .object before :: frames⟩ .between _ = _
      rw [List.append_assoc (writeText style key ++ [':', ' ']), readFrom_key lossless (.inl rfl)]
      refine one.trans ?_
      rw [writtenEntries, List.reverse_cons, List.append_assoc]
      exact others

end

/-- What is read of a document is what the document keeps of the value it was written from. -/
theorem parse?_render (lossless : IsLossless style) {value : Value} (held : value.plain.IsHeld) :
    parse? (render style value) = some value.plain.written := by
  have nothing : EndsBare [] := fun c isHead => by cases isHead
  have whole := readFrom_write lossless value.plain held (.inl rfl) [] 0 nothing
  rw [List.append_nil] at whole
  rw [parse?_eq, render, String.toList_ofList]
  exact whole

end Json

end Eaves

/-! ## What documents keep of values -/

namespace Eaves

variable {style : Json.Style}

mutual

/-- What is kept is plain data. -/
theorem Value.plain_written : ∀ value : Value, value.written.plain = value.written
  | .float x => by
      rw [Value.written]
      split <;> rfl
  | .list items => by rw [Value.written, Value.plain, plainItems_written items]
  | .object entries => by rw [Value.written, Value.plain, plainEntries_written entries]
  | .null | .bool _ | .int _ | .text _ | .date _ | .color _ | .zone _ | .spacing _ | .direction _
  | .motion _ | .speed _ => rfl

theorem plainItems_written :
    ∀ items : List Value, plainItems (writtenItems items) = writtenItems items
  | [] => rfl
  | item :: rest => by
      rw [writtenItems, plainItems, Value.plain_written item, plainItems_written rest]

theorem plainEntries_written :
    ∀ entries : Entries, plainEntries (writtenEntries entries) = writtenEntries entries
  | [] => rfl
  | (key, value) :: rest => by
      rw [writtenEntries, plainEntries, Value.plain_written value, plainEntries_written rest]

end

mutual

/-- Every whole number is kept. -/
theorem Value.wholes_written : ∀ value : Value, value.written.wholes = value.wholes
  | .float x => by
      rw [Value.written]
      split <;> rfl
  | .list items => by rw [Value.written, Value.wholes, Value.wholes, itemWholes_written items]
  | .object entries => by
      rw [Value.written, Value.wholes, Value.wholes, entryWholes_written entries]
  | .null | .bool _ | .int _ | .text _ | .date _ | .color _ | .zone _ | .spacing _ | .direction _
  | .motion _ | .speed _ => rfl

theorem itemWholes_written :
    ∀ items : List Value, itemWholes (writtenItems items) = itemWholes items
  | [] => rfl
  | item :: rest => by
      rw [writtenItems, itemWholes, itemWholes, Value.wholes_written item, itemWholes_written rest]

theorem entryWholes_written :
    ∀ entries : Entries, entryWholes (writtenEntries entries) = entryWholes entries
  | [] => rfl
  | (key, value) :: rest => by
      rw [writtenEntries, entryWholes, entryWholes, Value.wholes_written value,
        entryWholes_written rest]

end

namespace Json

mutual

/-- What is kept is written as what it was kept of. -/
theorem write_written (lossless : IsLossless style) :
    ∀ (value : Value) (depth : Nat), write style depth value.written = write style depth value
  | .float x, depth => by
      rw [Value.written]
      split
      · rfl
      · rename_i notFinite
        cases x with
        | finite value => exact absurd rfl notFinite
        | negativeZero => exact absurd rfl notFinite
        | infinite negative => rw [write, write, writeFloat, lossless.finiteOnly]; rfl
        | nan => rw [write, write, writeFloat, lossless.finiteOnly]; rfl
  | .list items, depth => by rw [Value.written, write, write, writeItems_written lossless items]
  | .object entries, depth => by
      rw [Value.written, write, write, writeEntries_written lossless entries]
  | .null, _ | .bool _, _ | .int _, _ | .text _, _ | .date _, _ | .color _, _ | .zone _, _
  | .spacing _, _ | .direction _, _ | .motion _, _ | .speed _, _ => rfl

theorem writeItems_written (lossless : IsLossless style) :
    ∀ (items : List Value) (depth : Nat),
      writeItems style depth (writtenItems items) = writeItems style depth items
  | [], _ => rfl
  | item :: rest, depth => by
      rw [writtenItems, writeItems, writeItems, write_written lossless item,
        writeItems_written lossless rest]

theorem writeEntries_written (lossless : IsLossless style) :
    ∀ (entries : Entries) (depth : Nat),
      writeEntries style depth (writtenEntries entries) = writeEntries style depth entries
  | [], _ => rfl
  | (key, value) :: rest, depth => by
      rw [writtenEntries, writeEntries, writeEntries, write_written lossless value,
        writeEntries_written lossless rest]

end

end Json

end Eaves
