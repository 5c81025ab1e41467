/-
Splitting a text at a character.
-/
namespace NamedStores.Split

/-- Splits before the first character that `stop` picks out. -/
def breakAt (stop : Char → Bool) (cs : List Char) : List Char × List Char :=
  (cs.takeWhile (!stop ·), cs.dropWhile (!stop ·))

/-- Splits at the first such character, if there is one, and leaves it out. -/
def first? (c : Char) (cs : List Char) : Option (List Char × List Char) :=
  match breakAt (· = c) cs with
  | (_, []) => none
  | (before, _ :: after) => some (before, after)

/-- Splits at the last such character, if there is one, and leaves it out. -/
def last? (c : Char) (cs : List Char) : Option (List Char × List Char) :=
  (first? c cs.reverse).map fun (after, before) => (before.reverse, after.reverse)

/-- What stands before the first such character, and what stands after it if there is one. -/
def cutOff (c : Char) (cs : List Char) : List Char × Option (List Char) :=
  match first? c cs with
  | some (before, after) => (before, some after)
  | none => (cs, none)

/-- The parts between such characters: one more than there are of them. -/
def pieces (c : Char) : List Char → List (List Char)
  | [] => [[]]
  | x :: cs =>
    if x = c then [] :: pieces c cs
    else
      match pieces c cs with
      | s :: more => (x :: s) :: more
      | [] => [[x]]

/-- Splits after the first place where a word stands, if there is one. -/
def after? (word : List Char) : List Char → Option (List Char × List Char)
  | [] => if word = [] then some ([], []) else none
  | c :: cs =>
    if word.isPrefixOf (c :: cs) then some (word, (c :: cs).drop word.length)
    else (after? word cs).map fun (before, rest) => (c :: before, rest)

/-- Whether a word stands anywhere in the text. -/
def contains (word : List Char) (cs : List Char) : Bool :=
  (after? word cs).isSome

end NamedStores.Split
