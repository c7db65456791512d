import WrapperGen.Template.Piece
/-!
# Templates

A template is a tree: text, tags that write, and blocks with one or two branches. It is built from
the parts of a text by a stack of the blocks that are open. A text is no template when a tag cannot
be read, when a block is not closed under its own name, or when it has two other branches.
-/

namespace WrapperGen.Template

/-- A part of a template that is complete. -/
inductive Node where
  | text (s : String)
  | value (a : Argument)
  | call (name : String) (inputs : Inputs)
  /-- A block with its body, and its other branch if it has one. -/
  | block (head : Head) (body : List Node) (otherwise : Option (List Node))
  deriving Repr, Inhabited

/-- A block that is not closed. Nodes stand last first. -/
structure OpenBlock where
  head : Head
  /-- What stood before the block. -/
  before : List Node
  /-- The body, once the other branch has started. -/
  body : Option (List Node)
  /-- The block fills the other branch of the one around it. -/
  chained : Bool
  deriving Repr, Inhabited

/-- A template up to some part: the nodes of the innermost block, last first, and the open blocks,
innermost first. -/
structure Builder where
  nodes : List Node
  blocks : List OpenBlock
  deriving Repr, Inhabited

namespace OpenBlock

/-- The block closed, with the nodes of its last branch. -/
def close (b : OpenBlock) (nodes : List Node) : Node :=
  match b.body with
  | none => .block b.head nodes.reverse none
  | some body => .block b.head body.reverse (some nodes.reverse)

/-- The block with its other branch started. It must not have one. -/
def turn? (b : OpenBlock) (nodes : List Node) : Option OpenBlock :=
  match b.body with
  | none => some { b with body := some nodes }
  | some _ => none

end OpenBlock

namespace Builder

/-- Nothing yet. -/
def empty : Builder := ⟨[], []⟩

/-- Closes the innermost block that is no filling of another, and those that fill it. -/
def close? (name : String) (nodes : List Node) : List OpenBlock → Option Builder
  | [] => none
  | b :: blocks =>
    let nodes := b.close nodes :: b.before
    if b.chained then close? name nodes blocks
    else if b.head.name = name then some ⟨nodes, blocks⟩
    else none

/-- One part. -/
def step? : Builder → Part → Option Builder
  | ⟨nodes, blocks⟩, .text s => some ⟨.text s :: nodes, blocks⟩
  | ⟨nodes, blocks⟩, .tag tag =>
    match tag with
    | .value a => some ⟨.value a :: nodes, blocks⟩
    | .call name inputs => some ⟨.call name inputs :: nodes, blocks⟩
    | .comment => some ⟨nodes, blocks⟩
    | .openBlock head => some ⟨[], ⟨head, nodes, none, false⟩ :: blocks⟩
    | .otherwise =>
      match blocks with
      | [] => none
      | b :: blocks => (b.turn? nodes).map fun b => ⟨[], b :: blocks⟩
    | .otherwiseBlock head =>
      match blocks with
      | [] => none
      | b :: blocks => (b.turn? nodes).map fun b => ⟨[], ⟨head, [], none, true⟩ :: b :: blocks⟩
    | .closeBlock name => close? name nodes blocks

/-- A row of parts. -/
def run? : Builder → List Part → Option Builder
  | b, [] => some b
  | b, p :: ps => (b.step? p).bind (run? · ps)

/-- The nodes, when every block is closed. -/
def result? : Builder → Option (List Node)
  | ⟨nodes, []⟩ => some nodes.reverse
  | _ => none

end Builder

/-- The template that a text writes. -/
def Node.ofText? (text : String) : Option (List Node) := do
  let parts ← Part.ofText? text
  let builder ← Builder.empty.run? parts
  builder.result?

end WrapperGen.Template
