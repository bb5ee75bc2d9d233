import ClusterSweep.Abort
import ClusterSweep.Binary64.Shortest
import ClusterSweep.Settings.Value
import ClusterSweep.Text.Quoted

/-!
# Rejected settings

A setting is rejected for one of a few reasons (`Problem`): it has the wrong kind of value, a
value of the right kind outside the allowed set, a list of the wrong length, an unknown variant
name, a missing required field, or a reason of its own; reading a value may also stop the
program (`Problem.stop`).  A `DecodeError` adds where the value sits (`path`, the keys and list
positions from the root) and which source it came from.

Two wordings exist.  A settings document given whole as JSON is reported in the document
wording (`DecodeError.documentMessage`): `invalid type: integer `5`, expected a string`, no
position and no source.  Settings layered from several sources are reported in the layered
wording (`DecodeError.layeredMessage`): `invalid type: found unsigned int `5`, expected a
string`, followed by the key, written the way its source spells keys, and by the source.
-/

namespace ClusterSweep.Settings

open ClusterSweep.Text

/-- What a rejected value turned out to be. -/
inductive Found where
  /-- A truth value. -/
  | bool (b : Bool)
  /-- A non-negative integer. -/
  | unsigned (n : Nat)
  /-- A negative integer. -/
  | signed (i : Int)
  /-- A floating-point number. -/
  | float (x : Binary64)
  /-- A text. -/
  | str (s : String)
  /-- The empty value. -/
  | unit
  /-- A list. -/
  | seq
  /-- A table. -/
  | map
  /-- A variant name without content. -/
  | unitVariant
  /-- A described value of another kind. -/
  | other (description : String)
  deriving Repr

/-- The kind of a scalar, as a rejection reports it. -/
def Found.ofScalar : Scalar → Found
  | .null => .unit
  | .bool b => .bool b
  | .unsigned n => if n < Nat.pow 2 64 then .unsigned n else .other ("integer `" ++ toString n ++ "` as u128")
  | .signed i =>
    if -(Nat.pow 2 63 : Int) ≤ i then .signed i else .other ("integer `" ++ toString i ++ "` as i128")
  | .float x => .float x
  | .str s => .str s

/-- The kind of a value, as a rejection reports it. -/
def Found.ofValue : Value → Found
  | .scalar _ s => Found.ofScalar s
  | .list _ _ => .seq
  | .table _ _ => .map

/-- Why a setting is rejected. -/
inductive Problem where
  /-- The value is of the wrong kind. -/
  | invalidType (found : Found) (expected : String)
  /-- The value is of the right kind but not allowed. -/
  | invalidValue (found : Found) (expected : String)
  /-- A list has the wrong number of elements. -/
  | invalidLength (length : Nat) (expected : String)
  /-- A variant name that is not one of `variants`. -/
  | unknownVariant (name : String) (variants : List String)
  /-- A required field is absent. -/
  | missingField (name : String)
  /-- A reason given in words. -/
  | message (text : String)
  /-- Reading the value stopped the program. -/
  | stop (a : Abort)
  deriving Repr

/-- A rejected setting: the reason, the keys leading to it, and its source once known. -/
structure DecodeError where
  /-- Why the value is rejected. -/
  problem : Problem
  /-- The keys and list positions from the root to the value. -/
  path : List String := []
  /-- The source, once some value on the way up has given one. -/
  origin : Option Origin := none
  /-- Whether a value on the way up has already named the source. -/
  attributed : Bool := false
  deriving Repr

namespace DecodeError

/-- The error one level further from the value, below key `key`. -/
def under (key : String) (e : DecodeError) : DecodeError := { e with path := key :: e.path }

/-- The error attributed to the source `o`, unless a value nearer to it named one already; a
value without a source names none, so the error waits for a value further up. -/
def within (o : Option Origin) (e : DecodeError) : DecodeError :=
  if e.attributed || o.isNone then e else { e with origin := o, attributed := true }

end DecodeError

/-- Names in backticks joined by `or` for two and listed after `one of` for more. -/
def oneOf : List String → String
  | [] => "there are no variants"
  | [a] => "`" ++ a ++ "`"
  | [a, b] => "`" ++ a ++ "` or `" ++ b ++ "`"
  | names => "one of " ++ ", ".intercalate (names.map fun n => "`" ++ n ++ "`")

/-- A found value in the document wording. -/
def Found.documentText : Found → String
  | .bool b => "boolean `" ++ toString b ++ "`"
  | .unsigned n => "integer `" ++ toString n ++ "`"
  | .signed i => "integer `" ++ toString i ++ "`"
  | .float x => "floating point `" ++ Binary64.layoutText Binary64.Layout.compact x ++ "`"
  | .str s => "string " ++ quoted s
  | .unit => "null"
  | .seq => "sequence"
  | .map => "map"
  | .unitVariant => "unit variant"
  | .other d => d

/-- A found value in the layered wording. -/
def Found.layeredText : Found → String
  | .bool b => "bool " ++ toString b
  | .unsigned n => "unsigned int `" ++ toString n ++ "`"
  | .signed i => "signed int `" ++ toString i ++ "`"
  | .float x => "float `" ++ Binary64.plainText x ++ "`"
  | .str s => "string " ++ quoted s
  | .unit => "unit"
  | .seq => "sequence"
  | .map => "map"
  | .unitVariant => "unit variant"
  | .other d => d

/-- The reason in the document wording. -/
def Problem.documentText : Problem → String
  | .invalidType f e => "invalid type: " ++ f.documentText ++ ", expected " ++ e
  | .invalidValue f e => "invalid value: " ++ f.documentText ++ ", expected " ++ e
  | .invalidLength n e => "invalid length " ++ toString n ++ ", expected " ++ e
  | .unknownVariant v [] => "unknown variant `" ++ v ++ "`, there are no variants"
  | .unknownVariant v vs => "unknown variant `" ++ v ++ "`, expected " ++ oneOf vs
  | .missingField f => "missing field `" ++ f ++ "`"
  | .message t => t
  | .stop a => a.message

/-- The reason in the layered wording. -/
def Problem.layeredText : Problem → String
  | .invalidType f e => "invalid type: found " ++ f.layeredText ++ ", expected " ++ e
  | .invalidValue f e => "invalid value " ++ f.layeredText ++ ", expected " ++ e
  | .invalidLength n e => "invalid length " ++ toString n ++ ", expected " ++ e
  | .unknownVariant v vs => "unknown variant: found `" ++ v ++ "`, expected `" ++ oneOf vs ++ "`"
  | .missingField f => "missing field `" ++ f ++ "`"
  | .message t => t
  | .stop a => a.message

/-- How a source spells the key of a value: environment variables in upper case, every other
source with the profile name `default` in front. -/
def Origin.keyText (o : Origin) (path : List String) : String :=
  match o with
  | .environment _ => ".".intercalate (path.map String.toUpper)
  | _ => ".".intercalate ("default" :: path)

/-- The name of a source in messages. -/
def Origin.describe : Origin → String
  | .defaults => "default settings"
  | .file path => path ++ " YAML file"
  | .environment p => "`" ++ p ++ "` environment variable(s)"
  | .commandLine => "command-line options"

/-- The stop that reading a value ended in, if it did not end in a rejection. -/
def DecodeError.stopped? (e : DecodeError) : Option Abort :=
  match e.problem with
  | .stop a => some a
  | _ => none

/-- The message of a rejected whole document. -/
def DecodeError.documentMessage (e : DecodeError) : String := e.problem.documentText

/-- The message of a rejected layered setting: the reason, then the key if the value is below
the root and its source is known, then the source. -/
def DecodeError.layeredMessage (e : DecodeError) : String :=
  match e.origin with
  | none => e.problem.layeredText
  | some o =>
    let key := if e.path.isEmpty then "" else " for key " ++ quoted (o.keyText e.path)
    e.problem.layeredText ++ key ++ " in " ++ o.describe

end ClusterSweep.Settings
