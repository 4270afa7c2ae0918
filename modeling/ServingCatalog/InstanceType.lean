import ServingCatalog.Fault
import ServingCatalog.Text.Bytes

/-!
# Instance types

An instance type is a text `ml.family.size` with exactly two periods. It is held as its text and
the byte offset at which the family ends; family and size are slices of the text.
-/

namespace ServingCatalog

/-- An instance type: its text, and where its family ends. -/
structure InstanceType where
  text : String
  familyStop : Nat
  deriving DecidableEq

/-- An instance type is shown as its text. -/
instance : ToString InstanceType := ⟨InstanceType.text⟩

namespace InstanceType

/-- The first part of every instance type. -/
def kindName : String := "ml"

/-- The byte offset at which the family starts. -/
def familyStart : Nat := kindName.utf8ByteSize + 1

/-- Reads a text of three parts, the first one `ml`. -/
def ofText (text : String) : Except MalformedInstanceType InstanceType :=
  match text.toList.splitOn '.' with
  | [kind, family, _] =>
    if kind = kindName.toList then .ok ⟨text, familyStart + Text.byteCount family⟩
    else .error .malformed
  | _ => .error .malformed

/-- Reads an instance type for a caller who is told which text was refused. -/
def parse (text : String) : Except Fault InstanceType :=
  match ofText text with
  | .ok instanceType => .ok instanceType
  | .error cause => .error (.invalidInstanceType text cause)

/-- The slice that holds the family. -/
def family? (t : InstanceType) : Option (List Char) :=
  Text.slice? familyStart t.familyStop t.text.toList

/-- The slice that holds the size. -/
def size? (t : InstanceType) : Option (List Char) :=
  Text.slice? (t.familyStop + 1) t.text.utf8ByteSize t.text.toList

/-- The family, such as `g5`. -/
def family (t : InstanceType) : String := String.ofList (t.family?.getD [])

/-- The size, such as `2xlarge`. -/
def size (t : InstanceType) : String := String.ofList (t.size?.getD [])

/-- The family letter of instances with disks of their own. -/
def diskLetter : Char := 'd'

/-- The family whose volumes are fixed. -/
def fixedVolumeFamily : String := "g5"

/-- Whether a volume size can be set: neither for families with a `d` nor for those of `g5`. -/
def volumeSizeSupported (t : InstanceType) : Bool :=
  let family := t.family?.getD []
  !family.contains diskLetter && !fixedVolumeFamily.toList.isPrefixOf family

end InstanceType

/-- Whether a volume size can be set for the instance type that a text names. -/
def volumeSizeSupported (text : String) : Except Fault Bool :=
  (InstanceType.parse text).map InstanceType.volumeSizeSupported

end ServingCatalog
