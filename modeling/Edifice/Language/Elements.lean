import Edifice.Builder.Instances
import Edifice.Language.Items
import Edifice.Language.Relationships

/-!
The statements of the model: elements, groups, deployment environments and the bodies of
elements.

A declaration may be assigned to an identifier.  The details of an element stand after its
name in an order that depends on its kind (`details`); an empty one counts as absent.
-/

namespace Edifice.Language

/-! ### Declaring elements -/

/-- What may be said about an element in its declaration. -/
inductive Detail where
  | metadata
  | description
  | technology
  | tags
  | instances
deriving DecidableEq, Repr

def Detail.name : Detail → String
  | .metadata => "metadata"
  | .description => "description"
  | .technology => "technology"
  | .tags => "tags"
  | .instances => "instances"

/-- The details of an element of a kind, in their order. -/
def details : ElementKind → List Detail
  | .person | .softwareSystem => [.description, .tags]
  | .container | .component | .infrastructureNode => [.description, .technology, .tags]
  | .customElement => [.metadata, .description, .tags]
  | .deploymentNode => [.description, .technology, .tags, .instances]
  | .softwareSystemInstance | .containerInstance => [.tags]

def elementGrammar (kind : ElementKind) : String :=
  let subject := if kind.isInstance then "<identifier>" else "<name>"
  let options := (details kind).map fun d => "[" ++ d.name ++ "]"
  " ".intercalate ([kind.keyword, subject] ++ options ++ ["[\x7b]"])

def isCount (s : String) : Bool :=
  s != "" && s.toList.all Char.isDigit

/-- Whether the text is a number of instances, such as `4`, `1..3` or `1..N`. -/
def isInstanceCount (s : String) : Bool :=
  match Text.cut? ".." s with
  | some (low, high) => isCount low && (isCount high || high == "N" || high == "*")
  | none => isCount s

/-- Says how many copies of a deployment node there are. -/
def Session.setInstances (s : Session) (id : ElementId) (t : Token) :
    Except Diagnostic Session :=
  let text := t.text
  if isInstanceCount text then s.build t.span (Builder.setInstances id text)
  else
    .error (.error .invalidValue
      s!"`{text}` is not a valid number of instances, expected a number or a range such as 1..N"
      t.span "invalid value")

/-- Adds one detail to a declared element.  The metadata of a custom element is part of
its declaration. -/
def Session.describe (id : ElementId) (s : Session) (detail : Detail × Token) :
    Except Diagnostic Session :=
  let t := detail.2
  if t.text = "" then .ok s
  else
    match detail.1 with
    | .metadata => .ok s
    | .description => s.build t.span (Builder.setElementDescription id t.text)
    | .technology => s.build t.span (Builder.setElementTechnology id t.text)
    | .tags => s.build t.span (Builder.addTags (.element id) t.text)
    | .instances => s.setInstances id t

/-- The element that an instance deploys, which must be of the kind that instances of
`kind` deploy. -/
def resolveDeployable (s : Session) (kind : ElementKind) (ts : Tokens) :
    Except Diagnostic ElementId :=
  match ts[1]? with
  | none => .error (missingTokens ts (elementGrammar kind))
  | some t => do
    let id ← s.resolveElement t "element"
    let e ← s.element id t.span
    if e.kind.instanceKind? = some kind then return id
    else
      let text := t.text
      let actual := e.kind.keyword
      let expected := if kind = .softwareSystemInstance then ElementKind.softwareSystem.keyword
        else ElementKind.container.keyword
      throw (.error .wrongIdentifier s!"`{text}` is a {actual}, but a {expected} was expected"
        t.span "wrong kind of element")

/-- The error of a declaration in a block that cannot hold it. -/
def misplaced (kind : ElementKind) (block : Block) (ts : Tokens) : Diagnostic :=
  let keyword := kind.keyword
  let name := block.name
  .error .illegalNesting s!"a {keyword} cannot be declared in a {name} block" (ts.span 0)
    "not permitted here"

/-- Declares an element of a kind in a block. -/
def declare (s : Session) (kind : ElementKind) (block : Block) (ts : Tokens) :
    Except Diagnostic (ElementId × Session) :=
  let name := ts.text 1
  let group := s.frames.group?
  let add := s.buildWith (ts.span 1)
  match kind, block with
  | .person, .model | .person, .group _ none => add (Builder.addPerson name group)
  | .softwareSystem, .model | .softwareSystem, .group _ none =>
    add (Builder.addSoftwareSystem name group)
  | .customElement, .model | .customElement, .group _ none =>
    add (Builder.addCustomElement name (ts.text? 2) group)
  | .container, .element parent | .container, .group _ (some parent) =>
    add (Builder.addContainer parent name group)
  | .component, .element parent | .component, .group _ (some parent) =>
    add (Builder.addComponent parent name group)
  | .deploymentNode, .deploymentEnvironment environment =>
    add (Builder.addDeploymentNode environment none name)
  | .deploymentNode, .deploymentNode parent environment =>
    add (Builder.addDeploymentNode environment (some parent) name)
  | .infrastructureNode, .deploymentNode node _ => add (Builder.addInfrastructureNode node name)
  | .softwareSystemInstance, .deploymentNode node _
  | .containerInstance, .deploymentNode node _ => do
    let deployed ← resolveDeployable s kind ts
    add (Builder.addInstance node deployed)
  | _, _ => .error (misplaced kind block ts)

/-- The body of an element that is declared in a block. -/
def bodyOf (kind : ElementKind) (block : Block) (id : ElementId) : Block :=
  match kind, block with
  | .deploymentNode, .deploymentEnvironment environment
  | .deploymentNode, .deploymentNode _ environment => .deploymentNode id environment
  | _, _ => .element id

def executeElement (s : Session) (kind : ElementKind) (identifier : Option Token)
    (st : Statement) (block : Block) : Execution := do
  let ts := st.tokens
  let options := details kind
  checkTokens ts 1 (options.length + 1) (elementGrammar kind)
  let (id, s) ← declare s kind block ts
  let s ← (options.zip (ts.drop 2)).foldlM (Session.describe id) s
  let s ← s.bindElement identifier id
  s.opening (bodyOf kind block id)

/-! ### Groups and environments -/

/-- The error of a group inside another one where that is not permitted. -/
def nestedGroup (ts : Tokens) : Diagnostic :=
  (Diagnostic.error .illegalNesting
    "groups can only be nested when a group separator is defined" (ts.span 0)
    "nested group").withHelp
    "add `structurizr.groupSeparator` to the model properties, e.g. `structurizr.groupSeparator /`"

def executeGroup (s : Session) (st : Statement) (block : Block) : Execution := do
  let ts := st.tokens
  let grammar := "group <name> \x7b"
  checkTokens ts 1 1 grammar
  requireBlock st grammar
  let name := ts.text 1
  match block with
  | .model => s.opening (.group name none)
  | .element id =>
    let e ← s.element id (ts.span 0)
    if e.kind.supportsGroups then s.opening (.group name (some id))
    else
      let keyword := e.kind.keyword
      throw (.error .illegalNesting s!"groups cannot be declared inside a {keyword}"
        (ts.span 0) "not permitted here")
  | .group outer parent =>
    match s.builder.model.groupSeparator? with
    | some separator => s.opening (.group (outer ++ separator ++ name) parent)
    | none => throw (nestedGroup ts)
  | _ => throw (unexpectedStatement st (some block))

/-- Names an environment by an identifier, which must not name another environment. -/
def Session.nameEnvironment (s : Session) (identifier : Option Token) (name : String) :
    Except Diagnostic Session :=
  match identifier with
  | none => .ok s
  | some t =>
    if !Identifier.isValid t.text then
      .error ((RegistryError.invalid t.text).diagnostic t.span)
    else if (s.environments.get? t.text).any (· != name) then
      .error ((RegistryError.duplicate t.text).diagnostic t.span)
    else .ok { s with environments := s.environments.insert t.text name }

def executeEnvironment (s : Session) (identifier : Option Token) (st : Statement)
    (block : Block) : Execution := do
  let ts := st.tokens
  let grammar := "deploymentEnvironment <name> \x7b"
  if block ≠ .model then throw (unexpectedStatement st (some block))
  checkTokens ts 1 1 grammar
  requireBlock st grammar
  let name := ts.text 1
  if name = "" then throw (invalidValue ts 1 "a deployment environment needs a name")
  let s ← s.nameEnvironment identifier name
  Session.opening { s with environments := s.environments.insert name name }
    (.deploymentEnvironment name)

/-! ### Bodies -/

def executeElementBody (s : Session) (id : ElementId) (st : Statement) (block : Block) :
    Execution := do
  let ts := st.tokens
  match st.keyword with
  | "description" =>
    checkTokens ts 1 1 "description <description>"
    let s ← s.build st.span (Builder.setElementDescription id (ts.text 1))
    s.done
  | "technology" =>
    checkTokens ts 1 1 "technology <technology>"
    let s ← s.build st.span (Builder.setElementTechnology id (ts.text 1))
    s.done
  | "instances" =>
    checkTokens ts 1 1 "instances <number|range>"
    match ts[1]? with
    | some t => (← s.setInstances id t).done
    | none => s.done
  | "tags" | "url" | "properties" | "perspectives" => executeItem s (.element id) st
  | _ => throw (unexpectedStatement st (some block))

/-- Executes a statement that may be the declaration of what an identifier names. -/
def executeDeclaration (s : Session) (identifier : Option Token) (st : Statement)
    (block : Block) : Execution := do
  let ts := st.tokens
  let keyword := st.keyword
  if ts.isAt 0 arrow || ts.isAt 1 arrow then executeRelationship s identifier st
  else if let some kind := ElementKind.ofKeyword? keyword then
    executeElement s kind identifier st block
  else if keyword = "deploymentEnvironment" then executeEnvironment s identifier st block
  else if identifier.isSome then
    throw (.error .unexpectedStatement
      s!"`{keyword}` does not declare anything that can be assigned an identifier"
      (ts.span 0) "not a declaration")
  else if keyword = "group" then executeGroup s st block
  else if keyword = "properties" ∧ block = .model then
    checkBare st
    s.opening (.properties .model)
  else
    match block.element? with
    | some id => executeElementBody s id st block
    | none => throw (unexpectedStatement st (some block))

/-- Executes a statement in the model, a group, an environment or an element. -/
def executeModel (s : Session) (st : Statement) (block : Block) : Execution :=
  if st.tokens.isAt 1 assignment then
    let declaration := st.drop 2
    if declaration.tokens.isEmpty then
      .error (missingTokens st.tokens "<identifier> = <statement>")
    else executeDeclaration s st.tokens.head? declaration block
  else executeDeclaration s none st block

end Edifice.Language
