import ScopeLexer.Regex.CharSet

/-!
The options that a pattern can switch, for itself or for a part of it.
-/
namespace ScopeLexer.Regex

/-- The options in force at a place of a pattern. -/
structure Options where
  /-- Letters match in either case. -/
  ignoreCase : Bool := false
  /-- Blanks and comments in the pattern do not count. -/
  extended : Bool := false
  /-- A dot also matches a line end. -/
  dotAll : Bool := false
  /-- Of the characters of words only the first 128 characters have any. -/
  asciiWord : Bool := false
  /-- Of the digits only those among the first 128 characters count. -/
  asciiDigit : Bool := false
  /-- Of the blanks only those among the first 128 characters count. -/
  asciiSpace : Bool := false
  /-- Of all named classes only the first 128 characters count. -/
  asciiNamed : Bool := false
  deriving Repr, DecidableEq, Inhabited

namespace Options

/-- Whether only the first 128 characters of a class count. -/
def narrows (options : Options) (name : NamedClass) : Bool :=
  options.asciiNamed || match name with
    | .word => options.asciiWord
    | .digit => options.asciiDigit
    | .space => options.asciiSpace
    | _ => false

/-- The characters of a named class. -/
def classSet (options : Options) (name : NamedClass) : CharSet :=
  if options.narrows name then .inter (.named name) (.named .ascii) else .named name

/-- The characters of a named class, or those that are not in it. -/
def signedSet (options : Options) (name : NamedClass) (negated : Bool) : CharSet :=
  if negated then .complement (options.classSet name) else options.classSet name

/-- The options after a letter, which is switched off if `off` says so. -/
def switch? (options : Options) (off : Bool) : Char → Option Options
  | 'i' => some { options with ignoreCase := !off }
  | 'x' => some { options with extended := !off }
  | 'm' => some { options with dotAll := !off }
  | 'W' => some { options with asciiWord := !off }
  | 'D' => some { options with asciiDigit := !off }
  | 'S' => some { options with asciiSpace := !off }
  | 'P' => some { options with asciiNamed := !off }
  | _ => none

end Options
end ScopeLexer.Regex
