/-
The tree of a settings text: scalars, sequences and mappings with what they claim to be.

Tokens are read into the one document that a text may hold. An anchor names a node for later aliases; it can be given
once, and an alias inside the node it names is refused.
-/
import ClassNaming.Yaml.Implicit
import ClassNaming.Yaml.Token

namespace ClassNaming.Yaml

/-- a node of the tree -/
inductive Node where
  | scalar (tag : Tag) (text : List Char)
  | sequence (tag : Tag) (items : List Node)
  | mapping (tag : Tag) (entries : List (Node × Node))
deriving Repr, Inhabited

namespace Node

/-- what stands for a node that is left out -/
def absent : Node := .scalar .null []

end Node

/-- the tokens that are left, the nodes by anchor (none while a node is being read), and the handles of tags -/
structure Reader where
  tokens : List Token
  anchors : List (List Char × Option Node)
  handles : List (List Char × List Char)
deriving Repr

namespace Reader

def peek (r : Reader) : Token := r.tokens.headD .streamEnd

def drop (r : Reader) : Reader := { r with tokens := r.tokens.tail }

/-- the handles that every text may use -/
def defaultHandles : List (List Char × List Char) :=
  [(['!'], ['!']), (['!', '!'], Tag.base.toList)]

/-- the properties before a node: an anchor and the full name of a tag, in either order -/
def properties (r : Reader) : Option (List Char) × Option (Option (List Char) × List Char) × Reader :=
  match r.tokens with
  | .anchor a :: .tag h s :: rest => (some a, some (h, s), { r with tokens := rest })
  | .tag h s :: .anchor a :: rest => (some a, some (h, s), { r with tokens := rest })
  | .anchor a :: rest => (some a, none, { r with tokens := rest })
  | .tag h s :: rest => (none, some (h, s), { r with tokens := rest })
  | _ => (none, none, r)

/-- the full name of a tag -/
def tagName (r : Reader) : Option (List Char) × List Char → Except Stop (List Char)
  | (none, suffix) => .ok suffix
  | (some handle, suffix) =>
    match r.handles.lookup handle with
    | some lead => .ok (lead ++ suffix)
    | none => .error .malformed

/-- the stated tag, unless it is the one that leaves the choice to the text -/
def stated? (name : Option (List Char)) : Option Tag :=
  match name with
  | some n => if n == ['!'] then none else some (Tag.ofName (String.ofList n))
  | none => none

/-- note that a node is being read -/
def enter (r : Reader) (anchor : Option (List Char)) : Except Stop Reader :=
  match anchor with
  | none => .ok r
  | some a => if (r.anchors.lookup a).isSome then .error .malformed else .ok { r with anchors := (a, none) :: r.anchors }

/-- note the node that was read -/
def leave (r : Reader) (anchor : Option (List Char)) (node : Node) : Reader :=
  match anchor with
  | none => r
  | some a => { r with anchors := (a, some node) :: r.anchors }

/-- the tag of scalar text without a stated one; plain text, and text under a lone mark, tells it itself -/
def scalarTag (name : Option (List Char)) (plain : Bool) (text : List Char) : Tag :=
  match stated? name with
  | some tag => tag
  | none => if plain || name.isSome then implicitTag text else .text

mutual

/-- a node; `block` allows block collections, and `bare` a block sequence that is not indented -/
def node : Nat → (block bare : Bool) → Reader → Except Stop (Node × Reader)
  | 0, _, _, _ => .error .malformed
  | n + 1, block, bare, r =>
    match r.peek with
    | .alias name =>
      match r.anchors.lookup name with
      | some (some found) => .ok (found, r.drop)
      | _ => .error .malformed
    | _ => do
      let (anchor, tag, r) := r.properties
      let name ← match tag with
        | some t => (r.tagName t).map some
        | none => pure none
      let r ← r.enter anchor
      let (found, r) ← content n block bare (anchor.isSome || tag.isSome) name r
      return (found, r.leave anchor found)

/-- a node after its properties, `named` telling whether there were any -/
def content : Nat → (block bare named : Bool) → Option (List Char) → Reader → Except Stop (Node × Reader)
  | 0, _, _, _, _, _ => .error .malformed
  | n + 1, block, bare, named, name, r =>
    let sequenceTag := (stated? name).getD .sequence
    let mappingTag := (stated? name).getD .mapping
    let empty : Except Stop (Node × Reader) :=
      if named then .ok (.scalar (scalarTag name true []) [], r) else .error .malformed
    match r.peek with
    | .blockEntry => if bare then do
        let (items, r) ← bareItems n r
        return (.sequence sequenceTag items, r)
      else empty
    | .scalar text plain => .ok (.scalar (scalarTag name plain text) text, r.drop)
    | .flowSequence => do
      let (items, r) ← flowItems n true r.drop
      return (.sequence sequenceTag items, r)
    | .flowMapping => do
      let (entries, r) ← flowPairs n true r.drop
      return (.mapping mappingTag entries, r)
    | .blockSequence => if block then do
        let (items, r) ← blockItems n r.drop
        return (.sequence sequenceTag items, r)
      else empty
    | .blockMapping => if block then do
        let (entries, r) ← blockPairs n r.drop
        return (.mapping mappingTag entries, r)
      else empty
    | _ => empty

/-- a node, or nothing if one of the given tokens comes -/
def orAbsent : Nat → List Token → (block bare : Bool) → Reader → Except Stop (Node × Reader)
  | 0, _, _, _, _ => .error .malformed
  | n + 1, ends, block, bare, r => if ends.contains r.peek then .ok (.absent, r) else node n block bare r

/-- the value after a key, or nothing if there is no mark of a value -/
def valueOf : Nat → List Token → (block : Bool) → Reader → Except Stop (Node × Reader)
  | 0, _, _, _ => .error .malformed
  | n + 1, ends, block, r =>
    match r.peek with
    | .value => orAbsent n ends block block r.drop
    | _ => .ok (.absent, r)

/-- the items of a block sequence -/
def blockItems : Nat → Reader → Except Stop (List Node × Reader)
  | 0, _ => .error .malformed
  | n + 1, r =>
    match r.peek with
    | .blockEntry => do
      let (item, r) ← orAbsent n [.blockEntry, .blockEnd] true false r.drop
      let (items, r) ← blockItems n r
      return (item :: items, r)
    | .blockEnd => .ok ([], r.drop)
    | _ => .error .malformed

/-- the items of a block sequence that is not indented -/
def bareItems : Nat → Reader → Except Stop (List Node × Reader)
  | 0, _ => .error .malformed
  | n + 1, r =>
    match r.peek with
    | .blockEntry => do
      let (item, r) ← orAbsent n [.blockEntry, .key, .value, .blockEnd] true false r.drop
      let (items, r) ← bareItems n r
      return (item :: items, r)
    | _ => .ok ([], r)

/-- the entries of a block mapping -/
def blockPairs : Nat → Reader → Except Stop (List (Node × Node) × Reader)
  | 0, _ => .error .malformed
  | n + 1, r =>
    match r.peek with
    | .key => do
      let ends := [Token.key, .value, .blockEnd]
      let (key, r) ← orAbsent n ends true true r.drop
      let (value, r) ← valueOf n ends true r
      let (entries, r) ← blockPairs n r
      return ((key, value) :: entries, r)
    | .blockEnd => .ok ([], r.drop)
    | _ => .error .malformed

/-- the items of a flow sequence; a lone pair is a mapping -/
def flowItems : Nat → (first : Bool) → Reader → Except Stop (List Node × Reader)
  | 0, _, _ => .error .malformed
  | n + 1, first, r =>
    if r.peek == .flowSequenceEnd then .ok ([], r.drop)
    else if !first && r.peek != .flowEntry then .error .malformed
    else
      let r := if first then r else r.drop
      match r.peek with
      | .flowSequenceEnd => .ok ([], r.drop)
      | .key => do
        let (key, r) ← orAbsent n [.value, .flowEntry, .flowSequenceEnd] false false r.drop
        let (value, r) ← valueOf n [.flowEntry, .flowSequenceEnd] false r
        let (items, r) ← flowItems n false r
        return (.mapping .mapping [(key, value)] :: items, r)
      | _ => do
        let (item, r) ← node n false false r
        let (items, r) ← flowItems n false r
        return (item :: items, r)

/-- the entries of a flow mapping -/
def flowPairs : Nat → (first : Bool) → Reader → Except Stop (List (Node × Node) × Reader)
  | 0, _, _ => .error .malformed
  | n + 1, first, r =>
    if r.peek == .flowMappingEnd then .ok ([], r.drop)
    else if !first && r.peek != .flowEntry then .error .malformed
    else
      let r := if first then r else r.drop
      match r.peek with
      | .flowMappingEnd => .ok ([], r.drop)
      | .key => do
        let (key, r) ← orAbsent n [.value, .flowEntry, .flowMappingEnd] false false r.drop
        let (value, r) ← valueOf n [.flowEntry, .flowMappingEnd] false r
        let (entries, r) ← flowPairs n false r
        return ((key, value) :: entries, r)
      | _ => do
        let (key, r) ← node n false false r
        let (entries, r) ← flowPairs n false r
        return ((key, .absent) :: entries, r)

end

/-- a bound on the calls that one chain can have -/
def fuel (r : Reader) : Nat := 6 * r.tokens.length + 12

/-- a node of a document -/
def root (r : Reader) : Except Stop (Node × Reader) :=
  node r.fuel true false r

/-- the directives before a document: a version once, of the first generation, and each handle once -/
def directives : (version : Bool) → (handles : List (List Char × List Char)) → List Token →
    Except Stop (List (List Char × List Char) × List Token)
  | version, handles, .version major :: rest =>
    if version || major != 1 then .error .malformed else directives true handles rest
  | version, handles, .tagHandle handle lead :: rest =>
    if (handles.lookup handle).isSome then .error .malformed else directives version ((handle, lead) :: handles) rest
  | version, handles, .otherDirective :: rest => directives version handles rest
  | _, handles, rest => .ok (handles ++ defaultHandles, rest)

def isDirective : Token → Bool
  | .version _ | .tagHandle _ _ | .otherDirective => true
  | _ => false

/-- nothing comes after the document but marks of its end -/
def finish (node : Node) (r : Reader) : Except Stop Node :=
  if r.tokens.dropWhile (· == .documentEnd) == [.streamEnd] then .ok node else .error .malformed

/-- the one document of a text; a text without any is an absent node -/
def document (tokens : List Token) : Except Stop Node := do
  match tokens.head? with
  | some first =>
    if first == .streamEnd then return .absent
    else if isDirective first || first == .documentStart then
      let (handles, rest) ← directives false [] tokens
      match rest with
      | .documentStart :: rest =>
        let r : Reader := ⟨rest, [], handles⟩
        let stop := isDirective r.peek || [Token.documentStart, .documentEnd, .streamEnd].contains r.peek
        if stop then finish .absent r
        else
          let (node, r) ← r.root
          finish node r
      | _ => throw .malformed
    else
      let (node, r) ← (Reader.mk tokens [] defaultHandles).root
      finish node r
  | none => return .absent

end Reader

end ClassNaming.Yaml
