import ViewMarkup.Component.Operation
import ViewMarkup.Written

/-!
# Making colors and fonts

A host can make colors and fonts from any arguments. What is compared with a number has to count as
one, and a truth value does; the arguments are kept as they were given.
-/

namespace ViewMarkup.Construction

/-- A value that is compared with an integer. -/
def comparable (operator : String) (v : Value) : Except Failure Number :=
  match v.number? with
  | some n => .ok n
  | none => .error (.mistyped (.unordered operator v.plainTypeName "int"))

/-- Whether a number lies above a bound; what is not a number does not. -/
def isAbove (bound : Int) : Number → Bool
  | .int n => bound < n
  | .float x => Float.ofInt bound < x

/-- Whether a number lies below a bound; what is not a number does not. -/
def isUnder (bound : Int) : Number → Bool
  | .int n => n < bound
  | .float x => x < Float.ofInt bound

/-- Checks the number of arguments with which an instance of a class is made. -/
def checkCount (cls : String) (needed optional : List String) (args : List Value) :
    Except Failure Unit :=
  (Operation.check { name := "__init__", needed, optional } cls args.length).mapError .mistyped

/-! ## Colors -/

/-- Checks channels in order. -/
def checkChannels : List Value → Except Failure Unit
  | [] => .ok ()
  | v :: vs => do
    let n ← comparable "<" v
    if isUnder 0 n || isAbove 255 n then throw (.invalid .colorChannel)
    checkChannels vs

/-- The two digits of a channel, which has to be a whole number. -/
def channelDigits (v : Value) : Except Failure (List Char) :=
  match v.number? with
  | some (.int n) => .ok (Color.hexPair (.ofNat n.toNat))
  | _ => .error (.invalid .channelNotWhole)

/-- Whether a channel lets nothing through. -/
def isOpaque (v : Value) : Bool :=
  match v.number? with
  | some (.int n) => n = 255
  | some (.float x) => x == 255.0
  | none => false

/-- The channels of a color made from some arguments, and its text form. -/
def color (args : List Value) : Except Failure (List Value × String) := do
  checkCount "Color" ["red", "green", "blue"] ["alpha"] args
  let channels := if args.length = 3 then args ++ [.int 255] else args
  checkChannels channels
  let alpha := (channels[3]?).getD (.int 255)
  let shown := channels.take 3
  let digits ← (if isOpaque alpha then shown else alpha :: shown).mapM channelDigits
  return (channels, String.ofList ('#' :: digits.flatten))

/-! ## Fonts -/

/-- A descriptor of a font made from some arguments. -/
def descriptor (args : List Value) : Except Failure Written := do
  checkCount "FontDescriptor" [] ["family", "weight", "slant"] args
  let usual : FontDescriptor := {}
  let family := (args[0]?).getD (.text usual.family)
  let weight := (args[1]?).getD (.int usual.weight)
  let slant := (args[2]?).getD (.text usual.slant)
  match family with
  | .text s => if Text.isBlankText s then throw (.invalid .fontFamily)
  | _ => throw .noAttribute
  let n ← comparable "<" weight
  if isUnder 1 n || isAbove 1000 n then throw (.invalid .fontWeight)
  return .descriptor (.ofPlain family) (.ofPlain weight) (.ofPlain slant)

/-- A font in the usual letters, whose size is the first of some arguments. -/
def font (args : List Value) : Except Failure Written := do
  match args with
  | [] => throw .indexOutOfRange
  | size :: _ =>
    if (← comparable "<=" size).isAtMostZero then throw (.invalid .fontSize)
    return .ofFontParts {} (.ofPlain size)

end ViewMarkup.Construction
