/-!
# Names in ASCII

A name outside ASCII is written with the characters of it that are in ASCII, followed by
where the others go.  The others are put in from the smallest code to the largest, and
each is written as the number of places and codes passed since the one before.  Numbers
are written in letters and digits, the lowest first; a bias that follows the numbers seen
so far says from which digit on a number may end.
-/

namespace Eaves.Address.Punycode

/-- A digit: the letters, and then the figures. -/
def digit (n : Nat) : Char :=
  if n < 26 then Char.ofNat ('a'.toNat + n) else Char.ofNat ('0'.toNat + n - 26)

/-- The least digit after which a number goes on, at a place that counts in steps of 36. -/
def threshold (place bias : Nat) : Nat :=
  min 26 (max 1 (place - bias))

theorem threshold_pos (place bias : Nat) : 1 ≤ threshold place bias := by
  unfold threshold
  omega

/-- A number in digits, from a place on. -/
def digits (bias place n : Nat) : List Char :=
  let least := threshold place bias
  if n < least then [digit n]
  else digit (least + (n - least) % (36 - least)) ::
    digits bias (place + 36) ((n - least) / (36 - least))
termination_by n
decreasing_by
  have positive := threshold_pos place bias
  exact Nat.lt_of_le_of_lt (Nat.div_le_self _ _) (by omega)

/-- The bias that a number leads to, and the steps to it. -/
def settle (place number : Nat) : Nat :=
  if number ≤ 455 then place + 36 * number / (number + 38)
  else settle (place + 36) (number / 35)
termination_by number
decreasing_by omega

/-- The bias after a number, when so many characters are in place; the first number counts
less. -/
def biasAfter (number count : Nat) (isFirst : Bool) : Nat :=
  let part := if isFirst then number / 700 else number / 2
  settle 0 (part + part / count)

/-- What is written so far: the number passed since, the bias, and how many characters are in
place. -/
structure Progress where
  written : List Char := []
  passed : Nat := 0
  bias : Nat := 72
  count : Nat

/-- Passes a character of the name when characters with a code go in. -/
def Progress.pass (basic code : Nat) (progress : Progress) (c : Char) : Progress :=
  if c.toNat < code then { progress with passed := progress.passed + 1 }
  else if c.toNat = code then
    { written := progress.written ++ digits progress.bias 36 progress.passed
      passed := 0
      bias := biasAfter progress.passed (progress.count + 1) (progress.count == basic)
      count := progress.count + 1 }
  else progress

/-- Puts in the characters with each code in turn; `next` is the least code not passed yet. -/
def insertAll (name : List Char) (basic : Nat) : (next : Nat) → List Nat → Progress → Progress
  | _, [], progress => progress
  | next, code :: codes, progress =>
      let start :=
        { progress with passed := progress.passed + (code - next) * (progress.count + 1) }
      let stop := name.foldl (Progress.pass basic code) start
      insertAll name basic (code + 1) codes { stop with passed := stop.passed + 1 }

/-- A number among sorted ones, once. -/
def insertSorted (n : Nat) : List Nat → List Nat
  | [] => [n]
  | m :: rest =>
      if n < m then n :: m :: rest else if n = m then m :: rest else m :: insertSorted n rest

/-- Whether a character is in ASCII. -/
def isBasic (c : Char) : Bool :=
  decide (c.toNat < 128)

/-- A name in ASCII. -/
def write (name : List Char) : List Char :=
  let basic := name.filter isBasic
  let codes := (name.filter fun c => !isBasic c).foldr (fun c => insertSorted c.toNat) []
  let mark := if basic.isEmpty then [] else ['-']
  basic ++ mark ++ (insertAll name basic.length 128 codes { count := basic.length }).written

end Eaves.Address.Punycode
