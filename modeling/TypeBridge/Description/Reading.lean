import TypeBridge.Description.Outline
/-!
# TypeBridge — a reading in progress

How far a description is read: the blocks that are still open, the outline of
the innermost one, and what is begun inside it. `step` takes one token, and a
token that may not come next has no step, so the tokens that may come next are
those with a step.

A class name and the type of a field may each be complete or go on. Such a
thing is taken as complete (`settled`) as soon as a token arrives that does not
continue it.
-/

namespace TypeBridge

namespace Description

/-- A type whose body is open. -/
structure OpenBody where
  isReference : Bool
  name : String
  fields : List FieldDecl := []
deriving DecidableEq

namespace OpenBody

def add (b : OpenBody) (field : FieldDecl) : OpenBody :=
  { b with fields := b.fields ++ [field] }

def close (b : OpenBody) : TypeDecl :=
  if b.isReference then .referenceType b.name (some b.fields) else .valueType b.name b.fields

end OpenBody

/-- A field whose type is still to come. -/
structure FieldHead where
  isStatic : Bool
  name : String
deriving DecidableEq

def FieldHead.withType (head : FieldHead) (type : TypeRef) : FieldDecl :=
  ⟨head.isStatic, head.name, type⟩

/-- What is begun inside the innermost block. -/
inductive Stage
  /-- Nothing: a declaration may start. -/
  | declarations
  /-- The word that opens a namespace block. -/
  | blockWord
  /-- The path of a block, which may go on. -/
  | blockPath (path : DottedName)
  /-- The path of a block and a dot. -/
  | blockDot (path : DottedName)
  | structWord
  | structName (name : String)
  | classWord
  /-- A class that may have a body. -/
  | className (name : String)
  | enumWord
  /-- An open body between two fields. -/
  | body (b : OpenBody)
  /-- The mark of a static field. -/
  | staticWord (b : OpenBody)
  | fieldName (b : OpenBody) (head : FieldHead)
  | fieldColon (b : OpenBody) (head : FieldHead)
  /-- A field whose type may go on. -/
  | fieldType (b : OpenBody) (head : FieldHead) (type : TypeRef)
  /-- The name of a field's type and a dot. -/
  | fieldDot (b : OpenBody) (head : FieldHead) (name : DottedName)
deriving DecidableEq

/-- A block that is still open: what stands before it, and its path. -/
structure OpenBlock where
  before : Outline
  path : DottedName
deriving DecidableEq

structure Reading where
  /-- The open blocks, innermost first. -/
  blocks : List OpenBlock := []
  /-- What the innermost block holds so far. -/
  outline : Outline := .empty
  stage : Stage := .declarations
deriving DecidableEq

namespace Reading

/-- The reading with something else begun. -/
def toStage (r : Reading) (stage : Stage) : Reading :=
  { r with stage }

/-- The reading with one more declaration, and nothing begun. -/
def declare (r : Reading) (decl : TypeDecl) : Reading :=
  { r with outline := r.outline.type decl, stage := .declarations }

/-- The reading inside a new block. -/
def openBlock (r : Reading) (path : DottedName) : Reading :=
  { blocks := ⟨r.outline, path⟩ :: r.blocks, outline := .empty, stage := .declarations }

/-- The reading after the innermost block, if there is one. -/
def closeBlock? (r : Reading) : Option Reading :=
  match r.blocks with
  | [] => none
  | block :: blocks =>
    some { blocks, outline := block.before.block block.path r.outline, stage := .declarations }

/-- The reading with everything complete that can be. -/
def settled (r : Reading) : Reading :=
  match r.stage with
  | .className name => r.declare (.referenceType name none)
  | .fieldType b head type => r.toStage (.body (b.add (head.withType type)))
  | _ => r

/-- Takes a token that goes on with what is begun. -/
def continue? (r : Reading) (t : Token) : Option Reading :=
  match r.stage, t with
  | .blockWord, .name n => some (r.toStage (.blockPath { name := n }))
  | .blockPath path, .mark .dot => some (r.toStage (.blockDot path))
  | .blockPath path, .mark .leftBrace => some (r.openBlock path)
  | .blockDot path, .name n => some (r.toStage (.blockPath (path.extend n)))
  | .structWord, .name n => some (r.toStage (.structName n))
  | .structName n, .mark .leftBrace => some (r.toStage (.body ⟨false, n, []⟩))
  | .classWord, .name n => some (r.toStage (.className n))
  | .className n, .mark .leftBrace => some (r.toStage (.body ⟨true, n, []⟩))
  | .enumWord, .name n => some (r.declare (.enumeration n))
  | .staticWord b, .name n => some (r.toStage (.fieldName b ⟨true, n⟩))
  | .fieldName b head, .mark .colon => some (r.toStage (.fieldColon b head))
  | .fieldColon b head, .name n => some (r.toStage (.fieldType b head { target := { name := n } }))
  | .fieldType b head ⟨name, 0⟩, .mark .dot => some (r.toStage (.fieldDot b head name))
  | .fieldType b head ⟨name, stars⟩, .mark .star =>
    some (r.toStage (.fieldType b head ⟨name, stars + 1⟩))
  | .fieldDot b head name, .name n =>
    some (r.toStage (.fieldType b head { target := name.extend n }))
  | _, _ => none

/-- Takes a token that begins something, or ends the block or body that is
open. -/
def begin? (r : Reading) (t : Token) : Option Reading :=
  match r.stage, t with
  | .declarations, .mark .namespaceWord => some (r.toStage .blockWord)
  | .declarations, .mark .structWord => some (r.toStage .structWord)
  | .declarations, .mark .classWord => some (r.toStage .classWord)
  | .declarations, .mark .enumWord => some (r.toStage .enumWord)
  | .declarations, .mark .rightBrace => r.closeBlock?
  | .body b, .mark .staticWord => some (r.toStage (.staticWord b))
  | .body b, .name n => some (r.toStage (.fieldName b ⟨false, n⟩))
  | .body b, .mark .rightBrace => some (r.declare b.close)
  | _, _ => none

/-- Takes a token, if it may come next. -/
def step (r : Reading) (t : Token) : Option Reading :=
  r.continue? t <|> r.settled.begin? t

/-- Takes tokens in turn. -/
def run (r : Reading) (ts : List Token) : Option Reading :=
  ts.foldlM step r

/-- The outline of a description that may end here: no block is open and
nothing is begun. -/
def finish? (r : Reading) : Option Outline :=
  match r.settled with
  | ⟨[], outline, .declarations⟩ => some outline
  | _ => none

/-- Whether a token of a kind may come next. Which name it is makes no
difference. -/
def expects (r : Reading) : Terminal → Bool
  | .mark m => (r.step (.mark m)).isSome
  | .name => (r.step (.name "x")).isSome

/-- What may come next. -/
def expected (r : Reading) : List Terminal :=
  Terminal.all.filter r.expects

end Reading

end Description

end TypeBridge
