import Beachhead.Regex
import Beachhead.Text

/-!
# Domain specifications and their parser

The environment variable of a container lists domain specs separated by white
space, each of the form `DOMAIN[:http[=PORT]][:https[=PORT]]`. The parser scans
the text with an unanchored pattern and splits the captured parameter list.
-/
namespace Beachhead
open Regex

/-- Specification for a single domain. -/
structure DomainSpec where
  domainName : Text
  httpPort : Option UInt16
  httpsPort : Option UInt16
  deriving DecidableEq

structure DomainSpecError where
  domainName : Text
  cause : Text.ParseIntError
  key : Option Text
  deriving DecidableEq

namespace DomainSpec

/-- `[a-zA-Z0-9]`. -/
def alnum (c : Char) : Bool :=
  ('a' ≤ c && c ≤ 'z') || ('A' ≤ c && c ≤ 'Z') || ('0' ≤ c && c ≤ '9')

/-- `[a-zA-Z0-9.-]`. -/
def inner (c : Char) : Bool := alnum c || c == '.' || c == '-'

/-- `[a-zA-Z0-9][a-zA-Z0-9.-]+[a-zA-Z0-9]`. -/
def NAME_PAT : Pattern := .seq (.cls alnum) (.seq (.many inner) (.cls alnum))

/-- `([a-zA-Z0-9][a-zA-Z0-9.-]+[a-zA-Z0-9]\.?)(:(\S+))?`. -/
def DS_PAT : Pattern :=
  .seq (.group 1 (.seq NAME_PAT (.opt (.cls (· == '.')))))
    (.opt (.group 2 (.seq (.cls (· == ':')) (.group 3 (.many fun c => !Text.isWhitespace c)))))

/-- `[^A-Za-z0-9_]`. -/
def ID_PAT : Pattern := .cls fun c => !(alnum c || c == '_')

def HTTP : Text := "http".toList
def HTTPS : Text := "https".toList

def specId (spec : DomainSpec) : Text := ID_PAT.replaceAll "_".toList spec.domainName

/-- Turn an optional result into a result of an optional value. -/
def optionalResult {R E : Type} : Option (Except E R) → Except E (Option R)
  | some (.ok x) => .ok (some x)
  | some (.error e) => .error e
  | none => .ok none

def parsePort (key : Text) (value : Option Text) (spec : DomainSpec) :
    Except DomainSpecError (Option UInt16) :=
  match optionalResult (value.map Text.fromStrRadix) with
  | .error e => .error ⟨spec.domainName, e, some key⟩
  | .ok port => .ok port

/-- The key of one parameter and its value, if it has a `=`. -/
def paramParts (rawParam : Text) : Text × Option Text :=
  let parts := Text.splitn2 '=' rawParam
  (Text.toLowercase (Text.trim parts.1), parts.2.map Text.trim)

/-- One pass of the loop over the parameters. -/
def applyParam (spec : DomainSpec) (rawParam : Text) : Except DomainSpecError DomainSpec :=
  let (key, value) := paramParts rawParam
  if key = HTTP then
    (parsePort key value spec).map fun port => { spec with httpPort := some (port.getD 80) }
  else if key = HTTPS then
    (parsePort key value spec).map fun port => { spec with httpsPort := some (port.getD 443) }
  else .ok spec

/-- If neither http nor https have been specified, assume both mappings. -/
def withDefaults (spec : DomainSpec) : DomainSpec :=
  if spec.httpPort.isNone && spec.httpsPort.isNone then
    { spec with httpPort := some 80, httpsPort := some 443 }
  else spec

/-- Group 1 takes part in every match, so the lookup cannot fail. -/
def capturedName (captures : Captures) : Text :=
  Text.chopEnd '.' ((captures.lookup 1).getD [])

def rawParams (captures : Captures) : List Text :=
  match captures.lookup 3 with
  | some params => Text.split ':' (Text.trim params)
  | none => []

def parseCaptures (captures : Captures) : Except DomainSpecError DomainSpec :=
  ((rawParams captures).foldlM applyParam ⟨capturedName captures, none, none⟩).map withDefaults

/-- The loop over the matches. The output vector is kept when a match fails to parse. -/
def parseEach : List Captures → List DomainSpec → Except DomainSpecError Unit × List DomainSpec
  | [], specs => (.ok (), specs)
  | captures :: rest, specs => match parseCaptures captures with
    | .error e => (.error e, specs)
    | .ok spec => parseEach rest (specs ++ [spec])

def parseAll (raw : Text) (specs : List DomainSpec) :
    Except DomainSpecError Unit × List DomainSpec :=
  parseEach (DS_PAT.capturesIter raw) specs

example : parseAll "example.org:http:https=8043 www.example.org.".toList [] =
    (.ok (), [⟨"example.org".toList, some 80, some 8043⟩,
      ⟨"www.example.org".toList, some 80, some 443⟩]) := by decide

end DomainSpec
end Beachhead
