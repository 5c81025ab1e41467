/-
Tokens of SQL. Every token keeps its characters and the blanks and comments before it, so that
the text of a run of tokens can be told exactly. Words are names or keywords; a name in double
quotes may turn out to be a text. Parameters without a number are counted through the whole
text. What begins no token is a token of its own, which no statement takes.
-/
import NamedStores.Sqlite.Number
import NamedStores.Text.Hex
import NamedStores.Text.Split

namespace NamedStores.Sqlite

inductive TokenKind where
  | word
  /-- A quoted name; in double quotes it may stand for a text. -/
  | name (text : String) (mayBeText : Bool)
  | literal (v : Value)
  | parameter (index : Option Nat)
  | symbol
  | illegal
  deriving DecidableEq

structure Token where
  /-- Blanks and comments before the token. -/
  gap : List Char
  chars : List Char
  kind : TokenKind

namespace Token

def text (t : Token) : String := String.ofList t.chars

/-- The text of a run of tokens, from the first to the last of them. -/
def spanText : List Token → String
  | [] => ""
  | t :: ts => String.ofList (t.chars ++ ts.flatMap fun u => u.gap ++ u.chars)

/-! ## Characters -/

def startsWord (c : Char) : Bool :=
  ('a' ≤ c && c ≤ 'z') || ('A' ≤ c && c ≤ 'Z') || c = '_' || 0x80 ≤ c.toNat

def continuesWord (c : Char) : Bool := startsWord c || Integer.isDigit c || c = '$'

/-- Blanks and comments at the start of a text: their characters, and the text after them. -/
def skipGap : Nat → List Char → List Char × List Char
  | 0, cs => ([], cs)
  | fuel + 1, cs =>
    let and (skipped : List Char) (rest : List Char) : List Char × List Char :=
      let (more, rest) := skipGap fuel rest
      (skipped ++ more, rest)
    match cs with
    | '-' :: '-' :: rest =>
      let line := rest.takeWhile (· ≠ '\n')
      and ('-' :: '-' :: line) (rest.drop line.length)
    | '/' :: '*' :: rest =>
      match Split.after? "*/".toList rest with
      | some (comment, rest) => and ('/' :: '*' :: comment) rest
      | none => (cs, [])
    | c :: rest => if Number.isBlank c then and [c] rest else ([], cs)
    | [] => ([], [])

/-- What stands before a closing quote, which is written twice inside, and what follows it. -/
def quoted? (close : Char) : List Char → Option (List Char × List Char)
  | [] => none
  | [c] => if c = close then some ([], []) else none
  | c :: d :: cs =>
    if c = close then
      if d = close then (quoted? close cs).map fun (inner, rest) => (c :: inner, rest)
      else some ([], d :: cs)
    else (quoted? close (d :: cs)).map fun (inner, rest) => (c :: inner, rest)

/-! ## Scanning -/

/-- The symbols of two characters, which go before those of one. -/
def longSymbols : List (List Char) := ["==", "<>", "!=", "<=", ">="].map String.toList

def shortSymbols : List Char := ['(', ')', ',', ';', '*', '+', '-', '=', '<', '>', '.']

/-- A quoted piece: what kind of token it is, and what follows it. -/
def scanQuoted (close : Char) (kind : List Char → TokenKind) (cs : List Char) :
    TokenKind × List Char :=
  match quoted? close cs with
  | some (inner, rest) => (kind inner, rest)
  | none => (.illegal, [])

def scanNumber (cs : List Char) : TokenKind × List Char :=
  match Number.readUnsigned false cs with
  | some (v, rest) =>
    let tail := rest.takeWhile continuesWord
    if tail.isEmpty then (.literal v, rest) else (.illegal, rest.drop tail.length)
  | none => (.symbol, cs.drop 1)

/-- A name between other quotes, or a symbol, or what is neither. -/
def scanSymbol (c : Char) (cs : List Char) : TokenKind × List Char :=
  if c.toNat = 0x60 then scanQuoted c (fun n => .name (String.ofList n) false) cs
  else if longSymbols.any fun s => s.isPrefixOf (c :: cs) then (.symbol, cs.drop 1)
  else if shortSymbols.contains c then (.symbol, cs)
  else (.illegal, cs)

/-- The kind of the token at the start of a text that is not empty, and what follows it. -/
def scanOne (c : Char) (cs : List Char) : TokenKind × List Char :=
  let blob (inner : List Char) : TokenKind :=
    match Hex.decode? inner with
    | some bs => .literal (.blob bs)
    | none => .illegal
  match c, cs with
  | '"', _ => scanQuoted '"' (fun n => .name (String.ofList n) true) cs
  | '[', _ => scanQuoted ']' (fun n => .name (String.ofList n) false) cs
  | '\'', _ => scanQuoted '\'' (fun s => .literal (.text (String.ofList s))) cs
  | 'x', '\'' :: rest => scanQuoted '\'' blob rest
  | 'X', '\'' :: rest => scanQuoted '\'' blob rest
  | '?', _ =>
    let digits := cs.takeWhile Integer.isDigit
    (.parameter (Integer.natural? digits), cs.drop digits.length)
  | '.', d :: _ => if Integer.isDigit d then scanNumber (c :: cs) else (.symbol, cs)
  | _, _ =>
    if startsWord c then (.word, cs.dropWhile continuesWord)
    else if Integer.isDigit c then scanNumber (c :: cs)
    else scanSymbol c cs

/-- Reads tokens, of which each has at least one character. -/
def scanAll : Nat → List Char → List Token
  | 0, _ => []
  | fuel + 1, cs =>
    let (gap, rest) := skipGap cs.length cs
    match rest with
    | [] => []
    | c :: more =>
      let (kind, after) := scanOne c more
      ⟨gap, rest.take (rest.length - after.length), kind⟩ :: scanAll fuel after

/-- Numbers the parameters that have no number, from the one after `count` on. -/
def countParameters (count : Nat) : List Token → List Token
  | [] => []
  | t :: ts =>
    if t.kind = .parameter none then
      { t with kind := .parameter (some (count + 1)) } :: countParameters (count + 1) ts
    else t :: countParameters count ts

def scan (sql : String) : List Token :=
  countParameters 0 (scanAll sql.toList.length sql.toList)

end Token

end NamedStores.Sqlite
