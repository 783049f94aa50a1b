import Edifice.Language.Expressions

/-!
The statements of the views block, the declarations of views and the bodies of static
ones.

A view is declared by its kind followed by its parts, in an order that depends on the kind
(`ViewKind.parts`): its scope and its environment are needed where they are listed, and
the other parts may be left out from the end.
-/

namespace Edifice.Language

/-! ### Declaring views -/

/-- What the declaration of a view may say. -/
inductive ViewPart where
  | scope
  | environment
  | key
  | title
  | description
deriving DecidableEq, Repr

/-- The parts of the declaration of a view, in their order. -/
def viewParts : ViewKind → List ViewPart
  | .systemLandscape => [.key, .description]
  | .systemContext | .container | .component | .dynamic => [.scope, .key, .description]
  | .deployment => [.scope, .environment, .key, .description]
  | .custom => [.key, .title, .description]

/-- Whether a declaration that has the part needs it. -/
def ViewPart.isNeeded : ViewPart → Bool
  | .scope | .environment => true
  | .key | .title | .description => false

def viewGrammar : ViewKind → String
  | .systemLandscape => "systemLandscape [key] [description] \x7b"
  | .systemContext =>
    "systemContext <software system identifier> [key] [description] \x7b"
  | .container => "container <software system identifier> [key] [description] \x7b"
  | .component => "component <container identifier> [key] [description] \x7b"
  | .dynamic =>
    "dynamic <*|software system identifier|container identifier> [key] [description] \x7b"
  | .deployment =>
    "deployment <*|software system identifier> <environment> [key] [description] \x7b"
  | .custom => "custom [key] [title] [description] \x7b"

/-- The token that gives a part of a declaration. -/
def viewPart? (kind : ViewKind) (ts : Tokens) (part : ViewPart) : Option Token :=
  ((viewParts kind).zip (ts.drop 1)).lookup part

/-- The token that gives a part, unless it is empty. -/
def filledPart? (kind : ViewKind) (ts : Tokens) (part : ViewPart) : Option Token :=
  (viewPart? kind ts part).filter fun t => t.text != ""

/-- Whether a view of the kind may be without a scope by naming `*` in its place. -/
def admitsAnyScope : ViewKind → Bool
  | .dynamic | .deployment => true
  | _ => false

def readViewScope (s : Session) (kind : ViewKind) (ts : Tokens) :
    Except Diagnostic (Option ElementId) :=
  match viewPart? kind ts .scope with
  | none => .ok none
  | some t =>
    if t.is wildcard && admitsAnyScope kind then .ok none
    else (s.resolveElement t "element").map some

def readEnvironment (s : Session) (kind : ViewKind) (ts : Tokens) :
    Except Diagnostic (Option String) :=
  match viewPart? kind ts .environment with
  | none => .ok none
  | some t =>
    match s.environments.get? t.text with
    | some name => .ok (some name)
    | none => .error (unknownIdentifier t "deployment environment")

/-- Gives a declared view its title, if the declaration has one. -/
def Session.titleView (s : Session) (key : String) (title : Option Token) :
    Except Diagnostic Session :=
  match title with
  | some t => s.build t.span (Builder.setViewTitle key t.text)
  | none => .ok s

/-- Gives a declared view its description, if the declaration has one. -/
def Session.describeView (s : Session) (key : String) (description : Option Token) :
    Except Diagnostic Session :=
  match description with
  | some t => s.build t.span (Builder.setViewDescription key t.text)
  | none => .ok s

def viewBody (kind : ViewKind) (key : String) : Block :=
  if kind = .dynamic then .dynamicView key else .staticView key

def executeView (s : Session) (kind : ViewKind) (st : Statement) : Execution := do
  let ts := st.tokens
  let parts := viewParts kind
  let grammar := viewGrammar kind
  checkTokens ts (parts.countP (·.isNeeded)) parts.length grammar
  requireBlock st grammar
  let scope ← readViewScope s kind ts
  let environment ← readEnvironment s kind ts
  let key := (filledPart? kind ts .key).map (·.text)
  let (key, s) ← s.buildWith st.span (Builder.addView kind key scope environment)
  let s ← s.titleView key (filledPart? kind ts .title)
  let s ← s.describeView key (filledPart? kind ts .description)
  s.opening (viewBody kind key)

def Session.addThemes (s : Session) (ts : Tokens) : Except Diagnostic Session :=
  ts.foldlM (fun (s : Session) t => s.build t.span (Builder.addTheme t.text)) s

def executeViews (s : Session) (st : Statement) : Execution := do
  let ts := st.tokens
  match ViewKind.ofKeyword? st.keyword with
  | some kind => executeView s kind st
  | none =>
    match st.keyword with
    | "styles" =>
      checkBare st
      s.opening .styles
    | "theme" =>
      checkTokens ts 1 1 "theme <url>"
      (← s.addThemes (ts.drop 1)).done
    | "themes" =>
      if ts.length ≤ 1 then throw (missingTokens ts "themes <url> [url...]")
      (← s.addThemes (ts.drop 1)).done
    | "properties" =>
      checkBare st
      s.opening (.properties .views)
    | _ => throw (unexpectedStatement st (some .views))

/-! ### Bodies of views -/

def readSeparation (ts : Tokens) (i : Nat) : Except Diagnostic Nat :=
  if i < ts.length then
    readNumber ts i Text.wordLimit "separation, expected a non-negative number"
  else .ok defaultSeparation

def readDirection (ts : Tokens) (i : Nat) : Except Diagnostic RankDirection :=
  if i < ts.length then readWord ts i RankDirection.parse else .ok .topBottom

/-- Reads a layout: a direction and two separations, each of which may be left out from
the end. -/
def readAutoLayout (ts : Tokens) : Except Diagnostic AutoLayout := do
  let direction ← readDirection ts 1
  let rankSeparation ← readSeparation ts 2
  let nodeSeparation ← readSeparation ts 3
  return { direction, rankSeparation, nodeSeparation }

/-- Executes a statement that the bodies of all views share. -/
def executeViewSetting (s : Session) (key : String) (st : Statement) (block : Block) :
    Execution := do
  let ts := st.tokens
  match st.keyword with
  | "title" =>
    checkTokens ts 1 1 "title <title>"
    (← s.build st.span (Builder.setViewTitle key (ts.text 1))).done
  | "description" =>
    checkTokens ts 1 1 "description <description>"
    (← s.build st.span (Builder.setViewDescription key (ts.text 1))).done
  | "autoLayout" | "autolayout" =>
    checkTokens ts 0 3 "autoLayout [tb|bt|lr|rl] [rankSeparation] [nodeSeparation]"
    let layout ← readAutoLayout ts
    (← s.build st.span (Builder.setAutoLayout key layout)).done
  | "properties" =>
    checkBare st
    s.opening (.properties (.view key))
  | _ => throw (unexpectedStatement st (some block))

/-- Shows what the expressions of a statement select. -/
def Session.includeAll (s : Session) (key : String) (ts : Tokens) :
    Except Diagnostic Session := do
  let selections ← readExpressions s ts
  selections.foldlM (fun s (selection, span) =>
    s.build span (Builder.includeSelection key selection)) s

/-- Takes out what the expressions of a statement match. -/
def Session.excludeAll (s : Session) (key : String) (ts : Tokens) :
    Except Diagnostic Session := do
  let selections ← readExpressions s ts
  selections.foldlM (fun s (selection, span) =>
    s.build span (Builder.excludeSelection key selection)) s

def executeStaticView (s : Session) (key : String) (st : Statement) : Execution := do
  let ts := st.tokens
  match st.keyword with
  | "include" =>
    if ts.length ≤ 1 then throw (missingTokens ts "include <*|identifier|expression> [...]")
    (← s.includeAll key (ts.drop 1)).done
  | "exclude" =>
    if ts.length ≤ 1 then throw (missingTokens ts "exclude <identifier|expression> [...]")
    (← s.excludeAll key (ts.drop 1)).done
  | _ => executeViewSetting s key st (.staticView key)

end Edifice.Language
