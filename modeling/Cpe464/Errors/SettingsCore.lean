import Cpe464.Errors.PacketManagerCore

/-!
The settings of `libcpe464`: what `SettingsManager` reads from the environment before `main`, and
what `sendErr_init` adds to it. The seed of `drand48`, the debug level and the port are left out.
-/

namespace Errors

/-! Numbers in a text. -/

def isSpace (char : Char) : Bool :=
  char = ' ' || char = '\t' || char = '\n' || char = '\x0b' || char = '\x0c' || char = '\r'

def longMax : Int := 2 ^ 63 - 1

/-- `strtol` with base 10, and `none` when there is no number at the front. -/
def strtol (text : List Char) : Option Int :=
  let text := text.dropWhile isSpace
  let negative := text.head? = some '-'
  let text := if negative ∨ text.head? = some '+' then text.tail else text
  let digits := text.takeWhile Char.isDigit
  if digits = [] then none
  else
    let value : Int := Nat.ofDigitChars 10 digits 0
    some (max (-longMax - 1) (min longMax (if negative then -value else value)))

def tokens (text : List Char) : List (List Char) := (text.splitOn ',').filter (· ≠ [])

def numbers : List (List Char) → List Int
  | [] => []
  | token :: rest =>
      match strtol token with
      | none => []
      | some value => value :: numbers rest

def parser2ListLong (text : List Char) : List Int := numbers (tokens text)

def parserLong2Uint32 (values : List Int) : List UInt32 :=
  (values.filter (0 ≤ ·)).map UInt32.ofInt

/-! The environment. -/

structure Environment where
  errRate : Option (List Char)
  errDrop : Option (List Char)
  errFlip : Option (List Char)

structure SettingsManager where
  errRate : Bool
  errDrop : Bool
  errFlip : Bool

abbrev Library (Rate : Type) := SettingsManager × PacketManager Rate

section

variable {Rate : Type} (strtof : List Char → Option Rate)

def loadErrRate (environment : Environment) (library : Library Rate) : Library Rate :=
  match environment.errRate.bind strtof with
  | none => library
  | some errorRate => ({ library.1 with errRate := true }, { library.2 with errorRate })

/-- `loadEnvData_ErrDrop`. A text with no number in it counts as a setting, too. -/
def loadErrDrop (environment : Environment) (library : Library Rate) : Library Rate :=
  match environment.errDrop with
  | none => library
  | some text =>
      let dropList := parserLong2Uint32 (parser2ListLong text)
      let settings := { library.1 with errDrop := true }
      if dropList = [] then
        (settings, { library.2 with chance := library.2.chance ++ [.errorDrop true []] })
      else
        (settings, { library.2 with constant := library.2.constant ++ [.errorDrop false dropList] })

/-- `loadEnvData_ErrFlip`, which does nothing with a list. -/
def loadErrFlip (environment : Environment) (library : Library Rate) : Library Rate :=
  match environment.errFlip with
  | none => library
  | some text =>
      let settings := { library.1 with errFlip := true }
      if parserLong2Uint32 (parser2ListLong text) = [] then
        (settings, { library.2 with chance := library.2.chance ++ [.errorFlipBits] })
      else (settings, library.2)

def load (zero : Rate) (environment : Environment) : Library Rate :=
  let library : Library Rate := (⟨false, false, false⟩, ⟨zero, 0, [], []⟩)
  loadErrFlip environment (loadErrDrop environment (loadErrRate strtof environment library))

/-- `sendErr_init`. What the environment has set stays as it is. -/
def sendErrInit (errorRate : Rate) (dropFlag flipFlag : Bool) (library : Library Rate) :
    Library Rate :=
  let (settings, manager) := library
  let constant := manager.constant ++ [.infoSeqNo ⟨[], []⟩]
  let errorRate := if settings.errRate then manager.errorRate else errorRate
  let drop := if settings.errDrop = false ∧ dropFlag then [.errorDrop true []] else []
  let flip := if settings.errFlip = false ∧ flipFlag then [.errorFlipBits] else []
  (settings, { manager with constant, errorRate, chance := manager.chance ++ drop ++ flip })

def started (zero : Rate) (environment : Environment) (errorRate : Rate)
    (dropFlag flipFlag : Bool) : PacketManager Rate :=
  (sendErrInit errorRate dropFlag flipFlag (load strtof zero environment)).2

def Used (atMost : Draw → Rate → Bool) (zero : Rate) (library : PacketManager Rate) : Prop :=
  ∃ environment errorRate dropFlag flipFlag messages sent,
    sendAll atMost (started strtof zero environment errorRate dropFlag flipFlag) messages =
      some (library, sent)

end

end Errors
