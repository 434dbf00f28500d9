import Wirepool.Json.Literal

/-!
# JSON documents

A recursive descent over the characters of a document.
-/

namespace Wirepool

/-- **A JSON document.** -/
inductive Json where
  | null
  | boolean (value : Bool)
  /-- A number, as written. -/
  | number (literal : List Char)
  /-- A string, unless what is written is no text. -/
  | string (text : Option String)
  | array (items : List Json)
  | object (members : List (Option String × Json))

namespace Json

mutual

/-- A value that follows blanks. The fuel bounds the depth of the descent. -/
def value? (fuel : Nat) (cs : List Char) : Option (Json × List Char) :=
  match fuel with
  | 0 => none
  | fuel + 1 =>
    match skipBlanks cs with
    | 'n' :: 'u' :: 'l' :: 'l' :: cs => some (.null, cs)
    | 't' :: 'r' :: 'u' :: 'e' :: cs => some (.boolean true, cs)
    | 'f' :: 'a' :: 'l' :: 's' :: 'e' :: cs => some (.boolean false, cs)
    | '"' :: cs => (string? cs).map fun (text, cs) => (.string text, cs)
    | '[' :: cs =>
      match skipBlanks cs with
      | ']' :: cs => some (.array [], cs)
      | cs => (items? fuel cs).map fun (items, cs) => (.array items, cs)
    | '{' :: cs =>
      match skipBlanks cs with
      | '}' :: cs => some (.object [], cs)
      | cs => (members? fuel cs).map fun (members, cs) => (.object members, cs)
    | cs => (readNumber cs).map fun (literal, cs) => (.number literal, cs)

/-- The items of an array, at least one, up to the closing bracket. -/
def items? (fuel : Nat) (cs : List Char) : Option (List Json × List Char) :=
  match fuel with
  | 0 => none
  | fuel + 1 =>
    match value? fuel cs with
    | none => none
    | some (item, cs) =>
      match skipBlanks cs with
      | ']' :: cs => some ([item], cs)
      | ',' :: cs => (items? fuel cs).map fun (items, cs) => (item :: items, cs)
      | _ => none

/-- The members of an object, at least one, up to the closing brace. -/
def members? (fuel : Nat) (cs : List Char) :
    Option (List (Option String × Json) × List Char) :=
  match fuel with
  | 0 => none
  | fuel + 1 =>
    match skipBlanks cs with
    | '"' :: cs =>
      match string? cs with
      | none => none
      | some (key, cs) =>
        match skipBlanks cs with
        | ':' :: cs =>
          match value? fuel cs with
          | none => none
          | some (item, cs) =>
            match skipBlanks cs with
            | '}' :: cs => some ([(key, item)], cs)
            | ',' :: cs => (members? fuel cs).map fun (members, cs) => ((key, item) :: members, cs)
            | _ => none
        | _ => none
    | _ => none

end

/-- **Reads a document.** Nothing but blanks may follow it. Every second step of
the descent takes a character, which is what the fuel counts on. -/
def parse? (s : String) : Option Json :=
  let cs := s.toList
  match value? (2 * cs.length + 2) cs with
  | some (document, cs) => if (skipBlanks cs).isEmpty then some document else none
  | none => none

end Json

end Wirepool
