/-!
# Patterns

Regular expressions over characters, matched by derivatives: what has to follow after the first
character is a pattern again.
-/

namespace Interlude.Text

inductive Pattern where
  | fail
  | empty
  | one (p : Char → Bool)
  | seq (a b : Pattern)
  | alt (a b : Pattern)
  | star (a : Pattern)

namespace Pattern

/-- Whether the empty text matches. -/
def isNullable : Pattern → Bool
  | fail => false
  | empty => true
  | one _ => false
  | seq a b => a.isNullable && b.isNullable
  | alt a b => a.isNullable || b.isNullable
  | star _ => true

/-- A sequence, kept small where one side decides. -/
def andThen : Pattern → Pattern → Pattern
  | fail, _ => fail
  | _, fail => fail
  | empty, b => b
  | a, b => seq a b

/-- A choice, kept small where one side decides. -/
def orElse : Pattern → Pattern → Pattern
  | fail, b => b
  | a, fail => a
  | a, b => alt a b

/-- What has to follow after `c`. -/
def after (c : Char) : Pattern → Pattern
  | fail => fail
  | empty => fail
  | one p => if p c then empty else fail
  | seq a b =>
    if a.isNullable then orElse (andThen (a.after c) b) (b.after c) else andThen (a.after c) b
  | alt a b => orElse (a.after c) (b.after c)
  | star a => andThen (a.after c) (star a)

/-- Whether the whole list matches. -/
def acceptsList (p : Pattern) : List Char → Bool
  | [] => p.isNullable
  | c :: rest => (p.after c).acceptsList rest

/-- Whether a whole text matches. -/
def accepts (p : Pattern) (s : String) : Bool := p.acceptsList s.toList

/-! ## Building patterns -/

def char (c : Char) : Pattern := one (· == c)

def any : Pattern := one (· != '\n')

def digit : Pattern := one Char.isDigit

def opt (p : Pattern) : Pattern := alt p empty

def plus (p : Pattern) : Pattern := seq p (star p)

/-- Exactly `n` times. -/
def times (p : Pattern) : Nat → Pattern
  | 0 => empty
  | n + 1 => seq p (p.times n)

/-- At most `n` times. -/
def upTo (p : Pattern) : Nat → Pattern
  | 0 => empty
  | n + 1 => opt (seq p (p.upTo n))

def all (ps : List Pattern) : Pattern := ps.foldr seq empty

/-- The lower case of a letter. The long s and the sign of the kelvin are an s and a k. -/
def lowered (c : Char) : Char :=
  if c.toNat = 0x17F then 's' else if c.toNat = 0x212A then 'k' else c.toLower

/-- The text itself, in upper or lower case. -/
def word (s : String) : Pattern :=
  all (s.toList.map fun c => one fun d => lowered d == lowered c)

/-- One of the texts, in upper or lower case. -/
def oneOf (words : List String) : Pattern := (words.map word).foldr alt fail

/-- The pattern anywhere in a text. -/
def within (p : Pattern) : Pattern := all [star (one fun _ => true), p, star (one fun _ => true)]

end Pattern

end Interlude.Text
