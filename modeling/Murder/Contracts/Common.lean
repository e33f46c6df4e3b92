import Mathlib.Algebra.GroupWithZero.Nat
import Mathlib.Algebra.Ring.Int.Defs
import Mathlib.Data.Rat.Defs

/-! Identity, time and JSON values shared by every feature, and the failures they raise. -/

namespace Murder.Contracts

/-- A 128-bit identifier. -/
structure Uuid where
  bits : BitVec 128
deriving DecidableEq, Inhabited

def Uuid.hexDigits (value : Nat) : Nat → List Char
  | 0 => []
  | count + 1 => hexDigits (value / 16) count ++ [Nat.digitChar (value % 16)]

/-- The canonical text `8-4-4-4-12` of an identifier. -/
def Uuid.str (id : Uuid) : String :=
  let digits := hexDigits id.bits.toNat 32
  String.ofList
    (digits.take 8 ++ '-' :: (digits.drop 8).take 4 ++ '-' :: (digits.drop 12).take 4
      ++ '-' :: (digits.drop 16).take 4 ++ '-' :: digits.drop 20)

instance : ToString Uuid := ⟨Uuid.str⟩

instance (n : Nat) : OfNat Uuid n := ⟨⟨BitVec.ofNat 128 n⟩⟩

/-- The identifiers one call draws from `uuid4`, in the order it draws them. -/
abbrev Supply := Nat → Uuid

def Supply.drop (supply : Supply) (count : Nat) : Supply := fun index => supply (count + index)

/-- A timezone-aware instant, in microseconds of UTC. -/
abbrev Timestamp := Int

abbrev Duration := Int

def seconds (count : Int) : Duration := count * 1000000

mutual
inductive JsonValue
  | null
  | bool (value : Bool)
  | int (value : Int)
  | float (value : Rat)
  | str (value : String)
  | arr (items : JsonItems)
  | obj (fields : JsonFields)
deriving DecidableEq

inductive JsonItems
  | nil
  | cons (head : JsonValue) (tail : JsonItems)
deriving DecidableEq

/-- The entries of a JSON object, in the key order it is stored in. -/
inductive JsonFields
  | nil
  | cons (key : String) (value : JsonValue) (tail : JsonFields)
deriving DecidableEq
end

abbrev JsonObject := JsonFields

def JsonFields.get? : JsonFields → String → Option JsonValue
  | .nil, _ => none
  | .cons key value tail, wanted => if key = wanted then some value else tail.get? wanted

def JsonFields.size : JsonFields → Nat
  | .nil => 0
  | .cons _ _ tail => tail.size + 1

def JsonFields.ofList : List (String × JsonValue) → JsonFields
  | [] => .nil
  | (key, value) :: rest => .cons key value (ofList rest)

def JsonFields.toList : JsonFields → List (String × JsonValue)
  | .nil => []
  | .cons key value tail => (key, value) :: tail.toList

/-- The numeric value Python compares: booleans are the integers zero and one. -/
def JsonValue.number? : JsonValue → Option Rat
  | .bool value => some (if value then 1 else 0)
  | .int value => some value
  | .float value => some value
  | _ => none

mutual
/-- Python's `==` on decoded JSON: numbers by value, objects by key. -/
def JsonValue.pyEq : JsonValue → JsonValue → Bool
  | .null, .null => true
  | .str left, .str right => left == right
  | .arr left, .arr right => left.pyEq right
  | .obj left, .obj right => left.size == right.size && left.within right
  | left, right => left.number?.isSome && left.number? == right.number?

def JsonItems.pyEq : JsonItems → JsonItems → Bool
  | .nil, .nil => true
  | .cons left lefts, .cons right rights => left.pyEq right && lefts.pyEq rights
  | _, _ => false

/-- Every entry of the left object has an equal entry under its key in the right one. -/
def JsonFields.within : JsonFields → JsonFields → Bool
  | .nil, _ => true
  | .cons key value tail, right =>
    (match right.get? key with
      | some other => value.pyEq other
      | none => false)
    && tail.within right
end

def JsonFields.pyEq (left right : JsonFields) : Bool :=
  left.size == right.size && left.within right

def JsonValue.truthy : JsonValue → Bool
  | .null => false
  | .bool value => value
  | .int value => value != 0
  | .float value => value != 0
  | .str value => value != ""
  | .arr items => items != .nil
  | .obj fields => fields != .nil

def JsonValue.typeName : JsonValue → String
  | .null => "NoneType"
  | .bool _ => "bool"
  | .int _ => "int"
  | .float _ => "float"
  | .str _ => "str"
  | .arr _ => "list"
  | .obj _ => "dict"

def JsonItems.toList : JsonItems → List JsonValue
  | .nil => []
  | .cons head tail => head :: tail.toList

def JsonItems.ofList : List JsonValue → JsonItems
  | [] => .nil
  | head :: tail => .cons head (ofList tail)

def JsonFields.keys : JsonFields → List String
  | .nil => []
  | .cons key _ tail => key :: tail.keys

/-- `value.get(key)` of an object; anything else holds no key. -/
def JsonValue.get? : JsonValue → String → Option JsonValue
  | .obj fields, key => fields.get? key
  | _, _ => none

/-- The whitespace `str.strip` removes. -/
def isSpace (c : Char) : Bool :=
  let code := c.toNat
  (0x09 ≤ code && code ≤ 0x0D) || (0x1C ≤ code && code ≤ 0x20) || code == 0x85 || code == 0xA0
    || code == 0x1680 || (0x2000 ≤ code && code ≤ 0x200A) || code == 0x2028 || code == 0x2029
    || code == 0x202F || code == 0x205F || code == 0x3000

def strip (text : String) : String :=
  String.ofList ((text.toList.dropWhile isSpace).reverse.dropWhile isSpace).reverse

/-- Python's `repr` of containers and floats. -/
class PyRepr where
  repr : JsonValue → String

/-- Python's `str` of a decoded JSON value. -/
def JsonValue.pyStr [PyRepr] : JsonValue → String
  | .null => "None"
  | .bool true => "True"
  | .bool false => "False"
  | .int value => toString value
  | .str value => value
  | other => PyRepr.repr other

inductive PrincipalKind
  | user
  | client
  | workflow
  | service
  | reviewer
  | llm
deriving DecidableEq

def PrincipalKind.value : PrincipalKind → String
  | .user => "user"
  | .client => "client"
  | .workflow => "workflow"
  | .service => "service"
  | .reviewer => "reviewer"
  | .llm => "llm"

/-- Stable reference to an acting or authorized subject. -/
structure Principal where
  kind : PrincipalKind
  id : String
deriving DecidableEq

/-- Request, work and fact linkage. -/
structure Correlation where
  correlationId : Uuid
  causationId : Option Uuid := none
  traceId : Option Uuid := none
deriving DecidableEq

/-- The exceptions the modelled code raises, with the data they carry. -/
inductive Failure
  | valueError (message : String)
  | keyError (key : String)
  | typeError (message : String)
  | attributeError (message : String)
  | bindingError (message : String)
  | assertionError (message : String)
  | integrityError
  | factIdentityConflict (message : String)
  | workflowNotFound (message : String)
  | staleWorkflowRevision (workflowId : Uuid) (expected actual : Nat)
  | signalDeduplicationConflict (deduplicationKey : String)
  | signalConsumption (message : String)
  | workflowStateMigrationRequired (message : String)
  | terminalWorkflowTransition (message : String)
  | workflowDefinitionUnavailable (message : String)
  | activityLifecycle (message : String)
  | sessionNotFound (message : String)
  | sessionRevisionConflict (message : String)
  | staleWriterLease (message : String)
  | writerLeaseRequired (message : String)
  | sessionController (message : String)
  | sessionControllerClosed (message : String)
  | sessionCapability (message : String)
  | sessionAuthorization (message : String)
  | sessionBackend (message : String)
  | grantConsumption (message : String)
  | permissionDenied (message : String)
  | approvalRequired (message : String) (approvalId : Uuid)
  | invalidAuthorization (message : String)
deriving DecidableEq

end Murder.Contracts
