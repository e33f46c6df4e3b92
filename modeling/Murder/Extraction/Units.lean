import Mathlib.Data.List.Sort
import Mathlib.Data.Prod.Lex
import Mathlib.Data.String.Basic
import Murder.Contracts.Common

/-! Semantic units extracted from a file, and the parents that enclosing ranges give them. -/

namespace Murder.Extraction

/-- A declaration of a file; of the metadata, the text of its `disambiguator` is kept. -/
structure ExtractedSemanticUnit where
  localId : String
  languageKind : String
  qualifiedName : String
  startLine : Int
  endLine : Int
  parentLocalId : Option String := none
  disambiguator : Option String := none
deriving DecidableEq

/-- A `contains` edge. -/
structure ContainsEdge where
  sourceUnitLocalId : String
  targetLocalId : String
  targetQualifiedName : String
  startLine : Int
  endLine : Int
deriving DecidableEq

variable (unit : ExtractedSemanticUnit) (units : List ExtractedSemanticUnit)

def unitContainsLine (line : Int) : Bool :=
  unit.startLine ≤ line && line ≤ unit.endLine

/-- The tightest span first, then the latest start, then the id. -/
def enclosureKey : Int ×ₗ (Int ×ₗ String) :=
  toLex (unit.endLine - unit.startLine, toLex (-unit.startLine, unit.localId))

def findEnclosingUnit (line : Int) (excludeLocalIds : List String) : Option ExtractedSemanticUnit :=
  ((units.filter (fun unit =>
    !excludeLocalIds.contains unit.localId && unitContainsLine unit line)).insertionSort
      (fun left right => enclosureKey left ≤ enclosureKey right)).head?

/-- The parent of a unit without one; one that covers the end line is preferred. -/
def enclosingParent (unit : ExtractedSemanticUnit) : Option ExtractedSemanticUnit :=
  match findEnclosingUnit units unit.startLine [unit.localId] with
  | none => none
  | some parent =>
    if unitContainsLine parent unit.endLine then some parent
    else findEnclosingUnit (units.filter (fun other => unitContainsLine other unit.endLine))
      unit.startLine [unit.localId]

def assignParent (unit : ExtractedSemanticUnit) : ExtractedSemanticUnit :=
  match unit.parentLocalId with
  | some _ => unit
  | none =>
    match enclosingParent units unit with
    | none => unit
    | some parent => { unit with parentLocalId := some parent.localId }

def assignParentsByEnclosure : List ExtractedSemanticUnit :=
  units.map (assignParent units)

def ContainsEdge.key (edge : ContainsEdge) : String ×ₗ (String ×ₗ (Int ×ₗ Int)) :=
  toLex (edge.sourceUnitLocalId, toLex (edge.targetLocalId, toLex (edge.startLine, edge.endLine)))

/-- The edges of the parent links to units of the file. -/
def deriveContainsRelationships : List ContainsEdge :=
  (units.filterMap (fun unit => do
    let parentId ← unit.parentLocalId
    if parentId ∈ units.map (·.localId) then
      return ⟨parentId, unit.localId, unit.qualifiedName, unit.startLine, unit.endLine⟩
    else
      none)).insertionSort (fun left right => left.key ≤ right.key)

end Murder.Extraction
