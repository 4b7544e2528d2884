import QuantizedConv.Arithmetic.Checked

/-!
# Arguments of a command line

Options have long names and are given as `--name value` or `--name=value`, flags as `--name`, each
at most once and in any order. Nothing else is accepted but a request for information and a
closing `--`. Arguments are taken from left to right, and the first one that decides the matter
does.
-/

set_option autoImplicit false

namespace QuantizedConv.Arguments

/-- The form of one argument. -/
inductive Form where
  /-- The end of all options. -/
  | closing
  /-- A long name, and a value that is attached to it. -/
  | long (name : String) (attached : Option String)
  /-- A group of short names, by its first one. -/
  | short (first : Char)
  /-- Anything else. -/
  | plain
deriving DecidableEq, Repr

/-- A long name and what is attached to it. -/
def splitLong (body : List Char) : Form :=
  .long (String.ofList (body.takeWhile (· ≠ '=')))
    (match body.dropWhile (· ≠ '=') with
    | _ :: value => some (String.ofList value)
    | [] => none)

/-- The form of an argument. -/
def form (argument : String) : Form :=
  match argument.toList with
  | ['-', '-'] => .closing
  | '-' :: '-' :: body => splitLong body
  | '-' :: first :: _ => .short first
  | _ => .plain

/-- An option or a flag. -/
structure Spec where
  /-- The long name. -/
  name : String
  /-- Which values an option takes; none for a flag. -/
  accepts : Option (String → Bool)

/-- What a command line asks for. -/
inductive Request where
  /-- To go on with these options and flags. -/
  | proceed (given : List (String × String))
  /-- To show how the command is used, or its version. -/
  | information
  /-- Nothing that the command understands. -/
  | misuse
deriving DecidableEq, Repr

/-- The value of an option that was given. -/
def value? (given : List (String × String)) (name : String) : Option String :=
  given.lookup name

/-- Whether an argument can be the value of the option before it. -/
def isValue (argument : String) : Bool := form argument = .plain

/-- The request of the arguments, after those that were already taken. -/
def parse (specs : List Spec) (given : List (String × String)) : List String → Request
  | [] => .proceed given
  | argument :: rest =>
    match form argument with
    | .plain => .misuse
    | .closing => if rest.isEmpty then .proceed given else .misuse
    | .short first => if first = 'h' ∨ first = 'V' then .information else .misuse
    | .long name attached =>
      if name = "help" ∨ name = "version" then
        if attached.isSome then .misuse else .information
      else
        match specs.find? fun spec => spec.name = name with
        | none => .misuse
        | some spec =>
          if (value? given name).isSome then .misuse
          else
            match spec.accepts, attached with
            | none, some _ => .misuse
            | none, none => parse specs (given ++ [(name, "")]) rest
            | some accepts, some value =>
              if accepts value then parse specs (given ++ [(name, value)]) rest else .misuse
            | some accepts, none =>
              match rest with
              | [] => .misuse
              | value :: rest =>
                if isValue value && accepts value then
                  parse specs (given ++ [(name, value)]) rest
                else .misuse

/-- Whether a text can be a path. -/
def isPath (text : String) : Bool := text ≠ ""

/-- The size that a text writes in decimal, with an optional plus. -/
def size? (text : String) : Option Nat :=
  let digits := match text.toList with
    | '+' :: rest => rest
    | all => all
  if digits.isEmpty || !digits.all Char.isDigit then none
  else
    let n := digits.foldl (fun n c => n * 10 + (c.toNat - '0'.toNat)) 0
    if n < Checked.sizeBound then some n else none

/-- Whether a text writes a size. -/
def isSize (text : String) : Bool := (size? text).isSome

end QuantizedConv.Arguments
