import Replication.Octets.Basic

/-! # Tokens of election records

Election records are texts of fields separated by a bar.  A token is a text without
the separator, so it can stand as one field: group names, proposal suffixes and
values are tokens.  `Token.split` cuts a record into its fields and `Token.join`
puts fields together.
-/

namespace Replication.Election

/-- The bar that separates the fields of a record. -/
def separator : UInt8 := 124

/-- A text that may stand as one field of a record. -/
structure Token where
  text : Octets := []
  plain : separator ∉ text := by decide
deriving DecidableEq, Repr

namespace Token

/-- The token of a text, unless the text holds the separator. -/
def ofText? (text : Octets) : Option Token :=
  if h : separator ∉ text then some ⟨text, h⟩ else none

/-- The empty text. -/
def empty : Token := {}

instance : Inhabited Token := ⟨empty⟩

/-- The token with one more byte in front, if that byte is no separator. -/
def cons (b : UInt8) (h : b ≠ separator) (t : Token) : Token :=
  ⟨b :: t.text, by simp [t.plain, Ne.symm h]⟩

/-- The fields of a record: one more than it has separators. -/
def split : Octets → List Token
  | [] => [empty]
  | b :: rest =>
    if h : b = separator then empty :: split rest
    else
      match split rest with
      | [] => [cons b h empty]
      | t :: ts => cons b h t :: ts

/-- The record of some fields. -/
def join : List Token → Octets
  | [] => []
  | [t] => t.text
  | t :: ts => t.text ++ separator :: join ts

/-- The text with a blank in the place of each separator. -/
def blanked (text : Octets) : Token :=
  ⟨text.map fun b => if b = separator then 32 else b, by
    simp only [List.mem_map, not_exists, not_and]
    intro b _
    split
    · decide
    · next h => exact h⟩

end Token

/-! ## What may not hold the separator -/

/-- A text that holds the separator was offered as a token. -/
inductive TokenError where
  | proposalSuffix (text : Octets)
  | value (text : Octets)
  | groupName (text : Octets)
deriving DecidableEq, Repr

def TokenError.message : TokenError → Octets
  | .proposalSuffix text =>
    .ofAscii "proposal suffix contains the field separator: " ++ text
  | .value text => .ofAscii "value contains the field separator: " ++ text
  | .groupName text => .ofAscii "group name contains the field separator: " ++ text

/-- The token of a text, or else the given error. -/
def Token.ofText (text : Octets) (error : Octets → TokenError) : Except TokenError Token :=
  match ofText? text with
  | some t => .ok t
  | none => .error (error text)

end Replication.Election
