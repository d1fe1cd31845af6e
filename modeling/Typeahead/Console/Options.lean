import Typeahead.Fault

/-!
# Options of a command line

An argument of the program that starts with a minus sign and has more to it is an option, up to an
argument of two minus signs.  An option's value is the next argument, or stands behind an equals
sign.  Names are not shortened.  Of an option that is given twice the last value counts.

## Main definitions

* `Switch` — the options of the commands.
* `Given` — the options and the other arguments that were given.
* `Given.ofArguments?` — the arguments sorted out.
-/

namespace Typeahead

namespace Console

/-- The options of the commands. -/
inductive Switch
  | help
  | level
  | cursor
  | config
  | directory
  deriving DecidableEq, Repr

/-- How an option is spelt. -/
def Switch.spelling : Switch → String
  | .help => "--help"
  | .level => "--log-level"
  | .cursor => "--cursor"
  | .config => "--config"
  | .directory => "--cwd"

/-- Whether an option takes a value. -/
def Switch.takesValue : Switch → Bool
  | .help => false
  | _ => true

/-- The options and the other arguments that were given. -/
structure Given where
  /-- The options with their values, in the order in which they were first given. -/
  values : List (Switch × Text)
  /-- The arguments that are no options. -/
  rest : List Text
  deriving DecidableEq, Repr

namespace Given

/-- The value of an option. -/
def value? (g : Given) (s : Switch) : Option Text :=
  (g.values.find? fun (t, _) => t = s).map fun (_, v) => v

/-- Whether an option was given. -/
def has (g : Given) (s : Switch) : Bool := (g.value? s).isSome

/-- The options with one more value; an option that is there keeps its place. -/
def put (s : Switch) (v : Text) : List (Switch × Text) → List (Switch × Text)
  | [] => [(s, v)]
  | (t, u) :: rest => if t = s then (s, v) :: rest else (t, u) :: put s v rest

/-- Whether an argument is written as an option. -/
def isOption : Text → Bool
  | '-' :: _ :: _ => true
  | _ => false

/-- The option that an argument names and the value behind its equals sign. -/
def switch? (known : List Switch) (argument : Text) : Option (Switch × Option Text) :=
  let (name, value) :=
    match Text.partition? ['='] argument with
    | some (name, value) => (name, some value)
    | none => (argument, none)
  match known.find? fun s => s.spelling.toList = name with
  | some s => if !s.takesValue && value.isSome then none else some (s, value)
  | none => none

/-- The arguments sorted out, behind the options `values` and the other arguments `rest`, last
first.  If `mixed` is false the first argument that is no option ends the options. -/
def collect? (known : List Switch) (mixed : Bool) (values : List (Switch × Text))
    (rest : List Text) : List Text → Option Given
  | [] => some ⟨values, rest.reverse⟩
  | argument :: more =>
    if argument = ['-', '-'] then some ⟨values, rest.reverse ++ more⟩
    else if isOption argument then
      match switch? known argument with
      | none => none
      | some (s, some value) => collect? known mixed (put s value values) rest more
      | some (s, none) =>
        if s.takesValue then
          match more with
          | [] => none
          | value :: more => collect? known mixed (put s value values) rest more
        else collect? known mixed (put s [] values) rest more
    else if mixed then collect? known mixed values (argument :: rest) more
    else some ⟨values, rest.reverse ++ argument :: more⟩

/-- The arguments sorted out; none if they name an option that is not known, or one without the
value that it takes. -/
def ofArguments? (known : List Switch) (mixed : Bool) (arguments : List Text) : Option Given :=
  collect? known mixed [] [] arguments

end Given

end Console

end Typeahead
