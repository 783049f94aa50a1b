import Edifice.Language.Interpreter
import Edifice.Proofs.Matches

/-!
Where things stand.

Tokens, open blocks and diagnostics carry the places at which they were found.  Lines that
say the same at different places are alike (`Tokens.Alike`), and so are the blocks that
they open (`Frames.Alike`) and the errors that they are refused with (`Diagnostic.Alike`).
Here are the operations of a session that statements are made of: each comes to the same
in a session whose blocks were opened elsewhere (`Session.elsewhere`), and none touches
the open blocks, the constants or the mark of the end (`Session.Leaves`).
-/

namespace Edifice

open Check

/-! ### Tokens -/

structure Token.Alike (t t' : Token) : Prop where
  text : t'.text = t.text
  quoted : t'.quoted = t.quoted

theorem Token.Alike.is {t t' : Token} (alike : t.Alike t') (mark : String) :
    t'.is mark = t.is mark := by
  rw [Token.is, alike.text, alike.quoted, Token.is]

theorem Token.Alike.map_text {t t' : Option Token} (alike : Option.Rel Token.Alike t t') :
    t'.map (·.text) = t.map (·.text) := by
  cases alike with
  | none => rfl
  | some same => exact congrArg some same.text

abbrev Tokens.Alike (ts ts' : Tokens) : Prop :=
  List.Forall₂ Token.Alike ts ts'

theorem Tokens.Alike.refl (ts : Tokens) : ts.Alike ts :=
  List.forall₂_same.mpr fun _ _ => ⟨rfl, rfl⟩

namespace Tokens.Alike

variable {ts ts' : Tokens} (alike : ts.Alike ts')
include alike

theorem length : ts'.length = ts.length :=
  alike.length_eq.symm

theorem get? (i : Nat) : Option.Rel Token.Alike ts[i]? ts'[i]? := by
  induction alike generalizing i with
  | nil => exact .none
  | cons first _ ih =>
    cases i with
    | zero => exact .some first
    | succ i => exact ih i

theorem text? (i : Nat) : ts'.text? i = ts.text? i :=
  Token.Alike.map_text (alike.get? i)

theorem text (i : Nat) : ts'.text i = ts.text i := by
  rw [Tokens.text, alike.text?, Tokens.text]

/-- Tokens that say the same have the same marks at the same places. -/
theorem isAt (i : Nat) (mark : String) : ts'.isAt i mark = ts.isAt i mark := by
  have at_i := alike.get? i
  unfold Tokens.isAt
  generalize ts[i]? = t at at_i ⊢
  generalize ts'[i]? = t' at at_i ⊢
  cases at_i with
  | none => rfl
  | some same => exact same.is mark

theorem drop (count : Nat) : Tokens.Alike (ts.drop count) (ts'.drop count) :=
  List.forall₂_drop count alike

theorem dropLast : Tokens.Alike ts.dropLast ts'.dropLast := by
  rw [List.dropLast_eq_take, List.dropLast_eq_take, alike.length]
  exact List.forall₂_take _ alike

theorem opensBlock : ts'.opensBlock = ts.opensBlock := by
  have last : ∀ ts : Tokens, ts.opensBlock = ts.isAt (ts.length - 1) blockStart := by
    intro ts
    rw [Tokens.opensBlock, List.getLast?_eq_getElem?, Tokens.isAt]
  rw [last, last, alike.length, alike.isAt]

theorem isEmpty : ts'.isEmpty = ts.isEmpty := by
  cases alike <;> rfl

theorem head? : Option.Rel Token.Alike ts.head? ts'.head? := by
  cases alike with
  | nil => exact .none
  | cons first _ => exact .some first

end Tokens.Alike

/-! ### Diagnostics -/

/-- The two are errors of the same kind. -/
structure Diagnostic.Alike (d d' : Diagnostic) : Prop where
  code : d'.code = d.code
  severe : d.severity = .error
  severe' : d'.severity = .error

/-- What is refused alike is refused with an error. -/
theorem Check.Matches.severe {α β : Type} {x : Except Diagnostic α} {y : Except Diagnostic β}
    {R : α → β → Prop} (both : Matches x y R Diagnostic.Alike) :
    Yields x (fun _ => True) (·.severity = .error) := by
  cases both with
  | ok => exact .ok trivial
  | error alike => exact .error alike.severe

/-- Both answer the same, or are refused alike. -/
abbrev Check.Same {α : Type} (x y : Except Diagnostic α) : Prop :=
  Matches x y Eq Diagnostic.Alike

namespace Language

/-! ### Statements -/

structure Statement.Alike (st st' : Statement) : Prop where
  tokens : st.tokens.Alike st'.tokens
  opensBlock : st'.opensBlock = st.opensBlock

namespace Statement.Alike

variable {st st' : Statement}

theorem keyword (alike : st.Alike st') : st'.keyword = st.keyword :=
  alike.tokens.text 0

theorem drop (alike : st.Alike st') (count : Nat) : (st.drop count).Alike (st'.drop count) :=
  ⟨alike.tokens.drop count, alike.opensBlock⟩

/-- Lines that say the same are the same statement. -/
theorem ofTokens {ts ts' : Tokens} (alike : ts.Alike ts') :
    (Statement.ofTokens ts).Alike (Statement.ofTokens ts') := by
  unfold Statement.ofTokens
  rw [alike.opensBlock]
  split
  · exact ⟨alike.dropLast, rfl⟩
  · exact ⟨alike, rfl⟩

end Statement.Alike

section Reading

variable {ts ts' : Tokens} (alike : ts.Alike ts')
include alike

theorem same_checkTokens (needed last : Nat) (grammar grammar' : String) :
    Same (checkTokens ts needed last grammar) (checkTokens ts' needed last grammar') := by
  unfold checkTokens
  rw [alike.length]
  refine .ite (fun _ => .error ⟨rfl, rfl, rfl⟩) fun _ => ?_
  exact .ite (fun _ => .error ⟨rfl, rfl, rfl⟩) fun _ => .ok rfl

theorem same_readWord (i : Nat) {α : Type} (parse : String → Except String α) :
    Same (readWord ts i parse) (readWord ts' i parse) := by
  unfold readWord
  rw [alike.text]
  split
  · exact .ok rfl
  · exact .error ⟨rfl, rfl, rfl⟩

/-- A truth value is read, or refused with the same error, wherever it stands. -/
theorem same_readBool (i : Nat) : Same (readBool ts i) (readBool ts' i) := by
  unfold readBool
  rw [alike.text]
  dsimp only
  split
  · exact .ok rfl
  · exact .ok rfl
  · exact .error ⟨rfl, rfl, rfl⟩

/-- A number is read, or refused with the same error, wherever it stands. -/
theorem same_readNumber (i limit : Nat) (what : String) :
    Same (readNumber ts i limit what) (readNumber ts' i limit what) := by
  unfold readNumber
  rw [alike.text]
  dsimp only
  split
  · exact .ok rfl
  · exact .error ⟨rfl, rfl, rfl⟩

theorem same_readPercentage (i : Nat) : Same (readPercentage ts i) (readPercentage ts' i) :=
  .after (same_readNumber alike i _ _) fun _ =>
    .unless (fun _ => ⟨rfl, rfl, rfl⟩) fun _ => .ok rfl

end Reading

section Statements

variable {st st' : Statement} (alike : st.Alike st')
include alike

theorem same_requireBlock (grammar grammar' : String) :
    Same (requireBlock st grammar) (requireBlock st' grammar') := by
  unfold requireBlock
  rw [alike.opensBlock]
  exact .ite (fun _ => .ok rfl) fun _ => .error ⟨rfl, rfl, rfl⟩

theorem same_checkBare : Same (checkBare st) (checkBare st') :=
  .after (same_checkTokens alike.tokens _ _ _ _) fun _ => same_requireBlock alike _ _

end Statements

/-! ### Open blocks -/

structure Frame.Alike (f f' : Frame) : Prop where
  block : f'.block = f.block
  scope : f'.scope = f.scope

abbrev Frames.Alike (frames frames' : Frames) : Prop :=
  List.Forall₂ Frame.Alike frames frames'

theorem Frames.Alike.refl (frames : Frames) : frames.Alike frames :=
  List.forall₂_same.mpr fun _ _ => ⟨rfl, rfl⟩

namespace Frames.Alike

variable {frames frames' : Frames} (alike : frames.Alike frames')
include alike

theorem block? : frames'.block? = frames.block? := by
  cases alike with
  | nil => rfl
  | cons first _ => exact congrArg some first.block

theorem scope : frames'.scope = frames.scope := by
  cases alike with
  | nil => rfl
  | cons first _ => exact first.scope

theorem group? : frames'.group? = frames.group? := by
  rw [Frames.group?, alike.block?, Frames.group?]

theorem element? : frames'.element? = frames.element? := by
  unfold Frames.element?
  induction alike with
  | nil => rfl
  | cons first _ ih => rw [List.findSome?_cons, List.findSome?_cons, first.block, ih]

end Frames.Alike

/-! ### Sessions -/

/-- The session with other open blocks. -/
def Session.elsewhere (s : Session) (frames : Frames) : Session :=
  { s with frames }

/-- What statements do not touch is in `s'` as in `s`. -/
structure Session.Leaves (s s' : Session) : Prop where
  frames : s'.frames = s.frames
  constants : s'.constants = s.constants
  closed : s'.closed = s.closed

namespace Session

variable {s s₁ s₂ s₃ s₄ : Session} {frames : Frames}

theorem Leaves.refl : s.Leaves s :=
  ⟨rfl, rfl, rfl⟩

theorem Leaves.trans (first : s.Leaves s₁) (second : s₁.Leaves s₂) : s.Leaves s₂ :=
  ⟨second.frames.trans first.frames, second.constants.trans first.constants,
    second.closed.trans first.closed⟩

/-- A step has led from `s` to `s₁`, and with the blocks `frames` in place of those of `s`
to `s₂`. -/
structure Reaches (s : Session) (frames : Frames) (s₁ s₂ : Session) : Prop where
  same : s₂ = s₁.elsewhere frames
  leaves : s.Leaves s₁

theorem Reaches.here (leaves : s.Leaves s₁) : s.Reaches frames s₁ (s₁.elsewhere frames) :=
  ⟨rfl, leaves⟩

/-- The two lead from `s` to the same session, `y` with the blocks `frames`. -/
abbrev Steps (s : Session) (frames : Frames) (x y : Except Diagnostic Session) : Prop :=
  Matches x y (s.Reaches frames) Diagnostic.Alike

/-- The two answer the same and lead from `s` to the same session, `y` with the blocks
`frames`. -/
abbrev Answers {α : Type} (s : Session) (frames : Frames)
    (x y : Except Diagnostic (α × Session)) : Prop :=
  Matches x y (fun a b => a.1 = b.1 ∧ s.Reaches frames a.2 b.2) Diagnostic.Alike

namespace Leaves

variable (leaves : s.Leaves s₁)
include leaves

theorem steps : s.Steps frames (.ok s₁) (.ok (s₁.elsewhere frames)) :=
  .ok (.here leaves)

theorem done : s.Answers frames s₁.done (s₁.elsewhere frames).done :=
  .ok ⟨rfl, .here leaves⟩

theorem opening (block : Block) :
    s.Answers frames (s₁.opening block) ((s₁.elsewhere frames).opening block) :=
  .ok ⟨rfl, .here leaves⟩

/-- Steps from a session that steps have led to. -/
theorem steps_after {x y : Except Diagnostic Session} (further : s₁.Steps frames x y) :
    s.Steps frames x y :=
  further.mono fun _ _ reached => ⟨reached.same, leaves.trans reached.leaves⟩

theorem answers_after {α : Type} {x y : Except Diagnostic (α × Session)}
    (further : s₁.Answers frames x y) : s.Answers frames x y :=
  further.mono fun _ _ reached => ⟨reached.1, reached.2.same, leaves.trans reached.2.leaves⟩

/-- A session that steps have led to, and where its blocks could have been opened. -/
theorem moved (moved : s.frames.Alike frames) : s₁.frames.Alike frames :=
  leaves.frames ▸ moved

end Leaves

section Sequences

variable {α β γ : Type} {R : β → γ → Prop}

/-- What comes after steps that lead to the same session. -/
theorem steps_then {x y : Except Diagnostic Session} {f : Session → Except Diagnostic β}
    {g : Session → Except Diagnostic γ} (first : s.Steps frames x y)
    (then_ : ∀ s₁, s.Leaves s₁ → Matches (f s₁) (g (s₁.elsewhere frames)) R Diagnostic.Alike) :
    Matches (x >>= f) (y >>= g) R Diagnostic.Alike := by
  refine first.bind ?_
  rintro s₁ _ ⟨rfl, leaves⟩
  exact then_ s₁ leaves

/-- What follows on an answer comes to the same if it does so in the session that the answer
leaves. -/
theorem answers_then {x y : Except Diagnostic (α × Session)}
    {f : α × Session → Except Diagnostic β} {g : α × Session → Except Diagnostic γ}
    (first : s.Answers frames x y)
    (then_ : ∀ a s₁, s.Leaves s₁ →
      Matches (f (a, s₁)) (g (a, s₁.elsewhere frames)) R Diagnostic.Alike) :
    Matches (x >>= f) (y >>= g) R Diagnostic.Alike := by
  refine first.bind ?_
  rintro ⟨a, s₁⟩ ⟨_, _⟩ ⟨rfl, rfl, leaves⟩
  exact then_ a s₁ leaves

/-- Steps that are all there is to a statement. -/
theorem answers_done {x y : Except Diagnostic Session} (first : s.Steps frames x y) :
    s.Answers frames (x >>= done) (y >>= done) :=
  steps_then first fun _ leaves => leaves.done

/-- A loop of steps. -/
theorem steps_foldlM {ι κ : Type} {T : ι → κ → Prop} {l : List ι} {l' : List κ}
    {f : Session → ι → Except Diagnostic Session} {g : Session → κ → Except Diagnostic Session}
    (listed : List.Forall₂ T l l')
    (turn : ∀ i j, T i j → ∀ s₁, s.Leaves s₁ →
      s₁.Steps frames (f s₁ i) (g (s₁.elsewhere frames) j)) :
    s.Steps frames (l.foldlM f s) (l'.foldlM g (s.elsewhere frames)) := by
  refine .foldlM listed (fun i j same s₁ s₂ reaches => ?_) (.here .refl)
  obtain ⟨rfl, leaves⟩ := reaches
  exact leaves.steps_after (turn i j same s₁ leaves)

end Sequences

/-! ### Changes -/

/-- A change of the workspace does not see the open blocks. -/
theorem answers_buildWith {α : Type} (c : Change Builder α) (span span' : Span) :
    s.Answers frames (s.buildWith span c) ((s.elsewhere frames).buildWith span' c) := by
  unfold buildWith elsewhere
  dsimp only
  split
  · exact .ok ⟨rfl, .here ⟨rfl, rfl, rfl⟩⟩
  · exact .error ⟨rfl, rfl, rfl⟩

theorem steps_build (c : Change Builder Unit) (span span' : Span) :
    s.Steps frames (s.build span c) ((s.elsewhere frames).build span' c) :=
  .map ((answers_buildWith c span span').mono fun _ _ reached => reached.2)

theorem same_element (id : ElementId) (span span' : Span) :
    Same (s.element id span) ((s.elsewhere frames).element id span') := by
  unfold element elsewhere
  dsimp only
  split
  · exact .ok rfl
  · exact .error ⟨rfl, rfl, rfl⟩

/-! ### Identifiers -/

variable {t t' : Token}

theorem resolve_elsewhere (moved : s.frames.Alike frames) (alike : t.Alike t') :
    (s.elsewhere frames).resolve t' = s.resolve t := by
  simp only [resolve, elsewhere, alike.is, alike.text, moved.element?, moved.scope]

/-- A name resolves by the scopes of the open blocks, which are the same. -/
theorem same_resolveElement (moved : s.frames.Alike frames) (alike : t.Alike t')
    (role : String) :
    Same (s.resolveElement t role) ((s.elsewhere frames).resolveElement t' role) := by
  unfold resolveElement
  rw [resolve_elsewhere moved alike]
  split
  · exact .ok rfl
  · exact .error ⟨rfl, rfl, rfl⟩
  · exact .error ⟨rfl, rfl, rfl⟩

theorem same_resolveRelationship (moved : s.frames.Alike frames) (alike : t.Alike t') :
    Same (s.resolveRelationship t) ((s.elsewhere frames).resolveRelationship t') := by
  unfold resolveRelationship
  rw [resolve_elsewhere moved alike]
  split
  · exact .ok rfl
  · exact .error ⟨rfl, rfl, rfl⟩
  · exact .error ⟨rfl, rfl, rfl⟩

/-- A name is registered alike, wherever its token stands. -/
theorem steps_register (alike : t.Alike t') (binding : Binding) (scope : Scope) :
    s.Steps frames (s.register t binding scope)
      ((s.elsewhere frames).register t' binding scope) := by
  unfold register elsewhere
  rw [alike.is, alike.text]
  refine .ite (fun _ => .error ⟨rfl, rfl, rfl⟩) fun _ => ?_
  dsimp only
  split
  · exact .ok ⟨rfl, rfl, rfl, rfl⟩
  · exact .error ⟨rfl, rfl, rfl⟩

variable {identifier identifier' : Option Token}

/-- An element is given its name in the scope of the open blocks, which are the same. -/
theorem steps_bindElement (moved : s.frames.Alike frames)
    (alike : Option.Rel Token.Alike identifier identifier') (id : ElementId) :
    s.Steps frames (s.bindElement identifier id)
      ((s.elsewhere frames).bindElement identifier' id) := by
  have scope : (s.elsewhere frames).frames.scope = s.frames.scope := moved.scope
  unfold bindElement
  rw [scope]
  cases alike with
  | none => exact .ok ⟨rfl, rfl, rfl, rfl⟩
  | some same => exact steps_register same _ _

theorem steps_bindRelationship (alike : Option.Rel Token.Alike identifier identifier')
    (id : RelationshipId) :
    s.Steps frames (s.bindRelationship identifier id)
      ((s.elsewhere frames).bindRelationship identifier' id) := by
  cases alike with
  | none => exact Leaves.refl.steps
  | some same => exact steps_register same _ _

end Session

end Language

end Edifice
