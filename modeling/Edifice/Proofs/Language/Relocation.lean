import Edifice.Proofs.Language.Places

/-!
Statements at other places.

A statement that is moved to another place, into a session whose blocks were opened at
other places, comes to the same: it answers the same and changes the session in the same
way, or it is refused under the same code (`answers_executeStatement`).  There is one lemma
for each form of statement.  Taken with itself, a statement shows what all of them have in
common: they leave the open blocks, the constants and the mark of the end alone
(`leaves_executeStatement`), and what they are refused with is an error
(`severe_runStatement`).
-/

namespace Edifice.Language

open Check Session

variable {s s₁ : Session} {frames : Frames} {ts ts' : Tokens} {st st' : Statement} {key : String}
  {colors : ColorReader}
  {identifier identifier' : Option Token} {t t' : Token}

/-- A statement that makes one change. -/
theorem answers_build (c : Change Builder Unit) (span span' : Span) :
    s.Answers frames (s.build span c >>= done) ((s.elsewhere frames).build span' c >>= done) :=
  answers_done (steps_build c span span')

/-- A statement that does nothing but open a block. -/
theorem answers_bare (alike : st.Alike st') (block : Block) :
    s.Answers frames (checkBare st >>= fun _ => s.opening block)
      (checkBare st' >>= fun _ => (s.elsewhere frames).opening block) :=
  .after (same_checkBare alike) fun _ => Leaves.refl.opening block

/-! ### Items -/

theorem answers_executeItem (ref : ItemRef) (alike : st.Alike st') :
    s.Answers frames (executeItem s ref st) (executeItem (s.elsewhere frames) ref st') := by
  unfold executeItem
  simp only [alike.keyword, alike.tokens.length, alike.tokens.text]
  split
  · refine .unless (fun _ => ⟨rfl, rfl, rfl⟩) fun _ => answers_done ?_
    refine steps_foldlM (alike.tokens.drop 1) fun t t' same s₁ _ => ?_
    rw [same.text]
    exact steps_build _ _ _
  · exact .after (same_checkTokens alike.tokens _ _ _ _) fun _ => answers_build _ _ _
  · exact answers_bare alike _
  · exact answers_bare alike _
  · exact .error ⟨rfl, rfl, rfl⟩

theorem answers_executeProperty (target : PropertyTarget) (alike : st.Alike st') :
    s.Answers frames (executeProperty s target st)
      (executeProperty (s.elsewhere frames) target st') := by
  unfold executeProperty
  simp only [alike.tokens.text]
  exact .after (same_checkTokens alike.tokens _ _ _ _) fun _ => answers_build _ _ _

theorem answers_executePerspective (ref : ItemRef) (alike : st.Alike st') :
    s.Answers frames (executePerspective s ref st)
      (executePerspective (s.elsewhere frames) ref st') := by
  unfold executePerspective
  simp only [alike.tokens.text, alike.tokens.text?]
  exact .after (same_checkTokens alike.tokens _ _ _ _) fun _ => answers_build _ _ _

/-! ### Relationships -/

/-- The source that a line leaves out is the element of the innermost block, which is the same.
-/
theorem matches_resolveSource (moved : s.frames.Alike frames) (alike : ts.Alike ts') :
    Matches (resolveSource s ts) (resolveSource (s.elsewhere frames) ts')
      (fun a b => a.1 = b.1 ∧ a.2.Alike b.2) Diagnostic.Alike := by
  have around : (s.elsewhere frames).frames.element? = s.frames.element? := moved.element?
  unfold resolveSource
  rw [alike.isAt, around]
  refine .ite (fun _ => .after (same_checkTokens alike _ _ _ _) fun _ => ?_)
    fun _ => .after (same_checkTokens alike _ _ _ _) fun _ => ?_
  · split
    · exact .ok ⟨rfl, alike.drop 1⟩
    · exact .error ⟨rfl, rfl, rfl⟩
  · cases alike with
    | nil => exact .error ⟨rfl, rfl, rfl⟩
    | cons first rest =>
      have whole : Tokens.Alike _ _ := .cons first rest
      exact .after (same_resolveElement moved first _) fun source => .ok ⟨rfl, whole.drop 2⟩

theorem steps_tagRelationship (id : RelationshipId)
    (alike : Option.Rel Token.Alike identifier identifier') :
    s.Steps frames (s.tagRelationship id identifier)
      ((s.elsewhere frames).tagRelationship id identifier') := by
  cases alike with
  | none => exact Leaves.refl.steps
  | some same =>
    unfold tagRelationship
    dsimp only
    rw [same.text]
    exact .ite (fun _ => Leaves.refl.steps) fun _ => steps_build _ _ _

/-- A relationship is entered between the same elements, and tagged alike. -/
theorem answers_executeRelationship (moved : s.frames.Alike frames)
    (named : Option.Rel Token.Alike identifier identifier') (alike : st.Alike st') :
    s.Answers frames (executeRelationship s identifier st)
      (executeRelationship (s.elsewhere frames) identifier' st') := by
  refine .bind (matches_resolveSource moved alike.tokens) ?_
  rintro ⟨source, rest⟩ ⟨_, rest'⟩ ⟨rfl, same⟩
  have text := same.text
  have tags := same.get? 3
  cases same with
  | nil => exact .error ⟨rfl, rfl, rfl⟩
  | cons first _ =>
    refine .after (same_resolveElement moved first _) fun destination => ?_
    rw [text, text]
    refine answers_then (answers_buildWith _ _ _) fun id s₁ added => added.answers_after ?_
    refine steps_then (steps_tagRelationship id tags) fun s₂ tagged => tagged.answers_after ?_
    exact steps_then (steps_bindRelationship named id) fun s₃ bound => bound.opening _

/-! ### Elements -/

theorem steps_setInstances (id : ElementId) (same : t.Alike t') :
    s.Steps frames (s.setInstances id t) ((s.elsewhere frames).setInstances id t') := by
  unfold setInstances
  rw [same.text]
  exact .ite (fun _ => steps_build _ _ _) fun _ => .error ⟨rfl, rfl, rfl⟩

def AlikeDetail (detail detail' : Detail × Token) : Prop :=
  detail.1 = detail'.1 ∧ detail.2.Alike detail'.2

theorem steps_describe (id : ElementId) {detail detail' : Detail × Token}
    (same : AlikeDetail detail detail') :
    s.Steps frames (s.describe id detail) ((s.elsewhere frames).describe id detail') := by
  obtain ⟨kind, t⟩ := detail
  obtain ⟨_, t'⟩ := detail'
  obtain ⟨rfl, same⟩ := same
  unfold describe
  dsimp only at same ⊢
  rw [same.text]
  refine .ite (fun _ => Leaves.refl.steps) fun _ => ?_
  split
  · exact Leaves.refl.steps
  · exact steps_build _ _ _
  · exact steps_build _ _ _
  · exact steps_build _ _ _
  · exact steps_setInstances id same

theorem alike_zip (options : List Detail) (alike : ts.Alike ts') :
    List.Forall₂ AlikeDetail (options.zip ts) (options.zip ts') := by
  induction alike generalizing options with
  | nil => simp
  | cons first _ ih =>
    cases options with
    | nil => exact .nil
    | cons option options => exact .cons ⟨rfl, first⟩ (ih options)

theorem same_resolveDeployable (moved : s.frames.Alike frames) (kind : ElementKind)
    (alike : ts.Alike ts') :
    Same (resolveDeployable s kind ts) (resolveDeployable (s.elsewhere frames) kind ts') := by
  have named := alike.get? 1
  unfold resolveDeployable
  generalize ts[1]? = t at named ⊢
  generalize ts'[1]? = t' at named ⊢
  cases named with
  | none => exact .error ⟨rfl, rfl, rfl⟩
  | some same =>
    refine .after (same_resolveElement moved same _) fun id => ?_
    refine .after (same_element id _ _) fun e => ?_
    exact .ite (fun _ => .ok rfl) fun _ => .error ⟨rfl, rfl, rfl⟩

/-- An element is declared in the same group and the same block, whatever the block was opened
by. -/
theorem answers_declare (moved : s.frames.Alike frames) (kind : ElementKind) (block : Block)
    (alike : ts.Alike ts') :
    s.Answers frames (declare s kind block ts) (declare (s.elsewhere frames) kind block ts') := by
  have group : (s.elsewhere frames).frames.group? = s.frames.group? := moved.group?
  have instances : ∀ kind node, s.Answers frames
      (resolveDeployable s kind ts >>= fun deployed =>
        s.buildWith (ts.span 1) (Builder.addInstance node deployed))
      (resolveDeployable (s.elsewhere frames) kind ts' >>= fun deployed =>
        (s.elsewhere frames).buildWith (ts'.span 1) (Builder.addInstance node deployed)) :=
    fun kind node => .after (same_resolveDeployable moved kind alike) fun _ =>
      answers_buildWith _ _ _
  unfold declare
  simp only [group, alike.text, alike.text?]
  split
  case h_14 | h_15 => exact instances _ _
  case h_16 => exact .error ⟨rfl, rfl, rfl⟩
  all_goals exact answers_buildWith _ _ _

theorem answers_executeElement (moved : s.frames.Alike frames) (kind : ElementKind)
    (named : Option.Rel Token.Alike identifier identifier') (alike : st.Alike st')
    (block : Block) :
    s.Answers frames (executeElement s kind identifier st block)
      (executeElement (s.elsewhere frames) kind identifier' st' block) := by
  refine .after (same_checkTokens alike.tokens _ _ _ _) fun _ => ?_
  refine answers_then (answers_declare moved kind block alike.tokens) fun id s₁ declared =>
    declared.answers_after ?_
  have described : s₁.Steps frames
      (((details kind).zip (st.tokens.drop 2)).foldlM (describe id) s₁)
      (((details kind).zip (st'.tokens.drop 2)).foldlM (describe id) (s₁.elsewhere frames)) :=
    steps_foldlM (alike_zip _ (alike.tokens.drop 2)) fun _ _ same _ _ => steps_describe id same
  refine steps_then described fun s₂ described => described.answers_after ?_
  have moved₂ := described.moved (declared.moved moved)
  exact steps_then (steps_bindElement moved₂ named id) fun s₃ bound => bound.opening _

/-! ### Groups and environments -/

theorem answers_executeGroup (alike : st.Alike st') (block : Block) :
    s.Answers frames (executeGroup s st block) (executeGroup (s.elsewhere frames) st' block) := by
  refine .after (same_checkTokens alike.tokens _ _ _ _) fun _ => ?_
  refine .after (same_requireBlock alike _ _) fun _ => ?_
  rw [alike.tokens.text]
  split
  · exact Leaves.refl.opening _
  · refine .after (same_element _ _ _) fun e => ?_
    exact .ite (fun _ => Leaves.refl.opening _) fun _ => .error ⟨rfl, rfl, rfl⟩
  · have separator : (s.elsewhere frames).builder = s.builder := rfl
    rw [separator]
    split
    · exact Leaves.refl.opening _
    · exact .error ⟨rfl, rfl, rfl⟩
  · exact .error ⟨rfl, rfl, rfl⟩

theorem steps_nameEnvironment (named : Option.Rel Token.Alike identifier identifier')
    (name : String) :
    s.Steps frames (s.nameEnvironment identifier name)
      ((s.elsewhere frames).nameEnvironment identifier' name) := by
  cases named with
  | none => exact Leaves.refl.steps
  | some same =>
    unfold nameEnvironment elsewhere
    dsimp only
    rw [same.text]
    refine .ite (fun _ => .error ⟨rfl, rfl, rfl⟩) fun _ => ?_
    refine .ite (fun _ => .error ⟨rfl, rfl, rfl⟩) fun _ => ?_
    exact .ok ⟨rfl, rfl, rfl, rfl⟩

theorem answers_executeEnvironment (named : Option.Rel Token.Alike identifier identifier')
    (alike : st.Alike st') (block : Block) :
    s.Answers frames (executeEnvironment s identifier st block)
      (executeEnvironment (s.elsewhere frames) identifier' st' block) := by
  unfold executeEnvironment
  simp only [alike.tokens.text]
  refine .unless (fun _ => ⟨rfl, rfl, rfl⟩) fun _ => ?_
  refine .after (same_checkTokens alike.tokens _ _ _ _) fun _ => ?_
  refine .after (same_requireBlock alike _ _) fun _ => ?_
  refine .unless (fun _ => ⟨rfl, rfl, rfl⟩) fun _ => ?_
  refine steps_then (steps_nameEnvironment named _) fun s₁ leaves => leaves.answers_after ?_
  exact .ok ⟨rfl, rfl, rfl, rfl, rfl⟩

/-! ### Bodies -/

theorem answers_executeElementBody (id : ElementId) (alike : st.Alike st') (block : Block) :
    s.Answers frames (executeElementBody s id st block)
      (executeElementBody (s.elsewhere frames) id st' block) := by
  have counted := alike.tokens.get? 1
  unfold executeElementBody
  simp only [alike.keyword, alike.tokens.text]
  split
  · exact .after (same_checkTokens alike.tokens _ _ _ _) fun _ => answers_build _ _ _
  · exact .after (same_checkTokens alike.tokens _ _ _ _) fun _ => answers_build _ _ _
  · refine .after (same_checkTokens alike.tokens _ _ _ _) fun _ => ?_
    generalize st.tokens[1]? = t at counted ⊢
    generalize st'.tokens[1]? = t' at counted ⊢
    cases counted with
    | none => exact Leaves.refl.done
    | some same => exact answers_done (steps_setInstances id same)
  · exact answers_executeItem _ alike
  · exact answers_executeItem _ alike
  · exact answers_executeItem _ alike
  · exact answers_executeItem _ alike
  · exact .error ⟨rfl, rfl, rfl⟩

theorem answers_executeDeclaration (moved : s.frames.Alike frames)
    (named : Option.Rel Token.Alike identifier identifier') (alike : st.Alike st')
    (block : Block) :
    s.Answers frames (executeDeclaration s identifier st block)
      (executeDeclaration (s.elsewhere frames) identifier' st' block) := by
  have assigned : identifier'.isSome = identifier.isSome := by
    cases named <;> rfl
  unfold executeDeclaration
  simp only [alike.keyword, alike.tokens.isAt, assigned]
  refine .ite (fun _ => answers_executeRelationship moved named alike) fun _ => ?_
  split
  · exact answers_executeElement moved _ named alike block
  · refine .ite (fun _ => answers_executeEnvironment named alike block) fun _ => ?_
    refine .ite (fun _ => .error ⟨rfl, rfl, rfl⟩) fun _ => ?_
    refine .ite (fun _ => answers_executeGroup alike block) fun _ => ?_
    refine .ite (fun _ => answers_bare alike _) fun _ => ?_
    split
    · exact answers_executeElementBody _ alike block
    · exact .error ⟨rfl, rfl, rfl⟩

theorem answers_executeModel (moved : s.frames.Alike frames) (alike : st.Alike st')
    (block : Block) :
    s.Answers frames (executeModel s st block) (executeModel (s.elsewhere frames) st' block) := by
  unfold executeModel
  simp only [alike.tokens.isAt, (alike.drop 2).tokens.isEmpty]
  refine .ite (fun _ => .ite (fun _ => .error ⟨rfl, rfl, rfl⟩) fun _ => ?_) fun _ => ?_
  · exact answers_executeDeclaration moved alike.tokens.head? (alike.drop 2) block
  · exact answers_executeDeclaration moved .none alike block

/-! ### Expressions -/

theorem same_readTags (t t' : Token) (value : String) :
    Same (readTags t value) (readTags t' value) := by
  unfold readTags
  split
  · exact .error ⟨rfl, rfl, rfl⟩
  · exact .ok rfl

theorem same_readReference (moved : s.frames.Alike frames) (same : t.Alike t') :
    Same (readReference s t) (readReference (s.elsewhere frames) t') := by
  unfold readReference
  rw [same.text, resolve_elsewhere moved same]
  split
  · rename_i name coupling _
    have inner : Token.Alike { t with text := name } { t' with text := name } := ⟨rfl, same.quoted⟩
    have element := same_resolveElement moved inner "element"
    exact .map (element.mono fun _ _ => congrArg (Selection.coupled · _))
  · split
    · exact .ok rfl
    · exact .ok rfl
    · exact .error ⟨rfl, rfl, rfl⟩

theorem same_readExpression (moved : s.frames.Alike frames) (same : t.Alike t') :
    Same (readExpression s t) (readExpression (s.elsewhere frames) t') := by
  unfold readExpression
  simp only [same.is, same.text]
  refine .ite (fun _ => .ok rfl) fun _ => .ite (fun _ => .ok rfl) fun _ => ?_
  split
  · exact .map ((same_readTags t t' _).mono fun _ _ => congrArg (Selection.elementTags · _))
  · split
    · split
      · exact .ok rfl
      · exact .error ⟨rfl, rfl, rfl⟩
    · split
      · exact .map ((same_readTags t t' _).mono fun _ _ =>
          congrArg (Selection.relationshipTags · _))
      · refine .ite (fun _ => .error ⟨rfl, rfl, rfl⟩) fun _ => ?_
        exact same_readReference moved same

theorem same_readEnd (moved : s.frames.Alike frames) (same : t.Alike t') (role : String) :
    Same (readEnd s t role) (readEnd (s.elsewhere frames) t' role) := by
  unfold readEnd
  rw [same.is]
  refine .ite (fun _ => .ok rfl) fun _ => ?_
  exact .map ((same_resolveElement moved same role).mono fun _ _ => congrArg some)

/-- The expressions select the same, wherever they stand. -/
theorem matches_readExpressions (moved : s.frames.Alike frames) (alike : ts.Alike ts') :
    Matches (readExpressions s ts) (readExpressions (s.elsewhere frames) ts')
      (List.Forall₂ fun a b => a.1 = b.1) Diagnostic.Alike := by
  have each : ∀ {ts ts' : Tokens}, ts.Alike ts' →
      Matches (ts.mapM fun t => do return (← readExpression s t, t.span))
        (ts'.mapM fun t => do return (← readExpression (s.elsewhere frames) t, t.span))
        (List.Forall₂ fun a b => a.1 = b.1) Diagnostic.Alike := by
    intro ts ts' alike
    refine .mapM alike fun t t' same => ?_
    exact .after (same_readExpression moved same) fun _ => .ok rfl
  have whole := each alike
  cases alike with
  | nil => exact whole
  | cons source rest =>
    cases rest with
    | nil => exact whole
    | cons mark rest =>
      cases rest with
      | nil => exact whole
      | cons destination rest =>
        cases rest with
        | cons => exact whole
        | nil =>
          unfold readExpressions
          simp only [mark.is]
          refine .ite (fun _ => ?_) fun _ => whole
          refine .after (same_readEnd moved source _) fun a => ?_
          exact .after (same_readEnd moved destination _) fun b => .ok (.cons rfl .nil)

/-! ### Views -/

/-- The part of a view stands at the same place in lines that say the same. -/
theorem alike_viewPart? (kind : ViewKind) (alike : ts.Alike ts') (part : ViewPart) :
    Option.Rel Token.Alike (viewPart? kind ts part) (viewPart? kind ts' part) := by
  unfold viewPart?
  generalize viewParts kind = parts
  have rest := alike.drop 1
  generalize ts.drop 1 = us at rest ⊢
  generalize ts'.drop 1 = us' at rest ⊢
  induction rest generalizing parts with
  | nil =>
    rw [List.zip_nil_right]
    exact .none
  | cons first _ ih =>
    cases parts with
    | nil => exact .none
    | cons p parts =>
      rw [List.zip_cons_cons, List.zip_cons_cons, List.lookup_cons, List.lookup_cons]
      cases part == p with
      | true => exact .some first
      | false => exact ih parts

theorem alike_filledPart? (kind : ViewKind) (alike : ts.Alike ts') (part : ViewPart) :
    Option.Rel Token.Alike (filledPart? kind ts part) (filledPart? kind ts' part) := by
  have given := alike_viewPart? kind alike part
  unfold filledPart?
  generalize viewPart? kind ts part = t at given ⊢
  generalize viewPart? kind ts' part = t' at given ⊢
  cases given with
  | none => exact .none
  | some same =>
    simp only [Option.filter_some, same.text]
    split
    · exact .some same
    · exact .none

theorem same_readViewScope (moved : s.frames.Alike frames) (kind : ViewKind)
    (alike : ts.Alike ts') :
    Same (readViewScope s kind ts) (readViewScope (s.elsewhere frames) kind ts') := by
  have given := alike_viewPart? kind alike .scope
  unfold readViewScope
  generalize viewPart? kind ts .scope = t at given ⊢
  generalize viewPart? kind ts' .scope = t' at given ⊢
  cases given with
  | none => exact .ok rfl
  | some same =>
    simp only [same.is]
    refine .ite (fun _ => .ok rfl) fun _ => ?_
    exact .map ((same_resolveElement moved same _).mono fun _ _ => congrArg some)

theorem same_readEnvironment (kind : ViewKind) (alike : ts.Alike ts') :
    Same (readEnvironment s kind ts) (readEnvironment (s.elsewhere frames) kind ts') := by
  have given := alike_viewPart? kind alike .environment
  unfold readEnvironment elsewhere
  generalize viewPart? kind ts .environment = t at given ⊢
  generalize viewPart? kind ts' .environment = t' at given ⊢
  cases given with
  | none => exact .ok rfl
  | some same =>
    simp only [same.text]
    split
    · exact .ok rfl
    · exact .error ⟨rfl, rfl, rfl⟩

theorem steps_titleView (key : String) (given : Option.Rel Token.Alike identifier identifier') :
    s.Steps frames (s.titleView key identifier)
      ((s.elsewhere frames).titleView key identifier') := by
  cases given with
  | none => exact Leaves.refl.steps
  | some same =>
    unfold titleView
    simp only [same.text]
    exact steps_build _ _ _

theorem steps_describeView (key : String)
    (given : Option.Rel Token.Alike identifier identifier') :
    s.Steps frames (s.describeView key identifier)
      ((s.elsewhere frames).describeView key identifier') := by
  cases given with
  | none => exact Leaves.refl.steps
  | some same =>
    unfold describeView
    simp only [same.text]
    exact steps_build _ _ _

/-- A view is declared under the same key and opens the same block. -/
theorem answers_executeView (moved : s.frames.Alike frames) (kind : ViewKind)
    (alike : st.Alike st') :
    s.Answers frames (executeView s kind st) (executeView (s.elsewhere frames) kind st') := by
  have key := Token.Alike.map_text (alike_filledPart? kind alike.tokens .key)
  unfold executeView
  simp only [key]
  refine .after (same_checkTokens alike.tokens _ _ _ _) fun _ => ?_
  refine .after (same_requireBlock alike _ _) fun _ => ?_
  refine .after (same_readViewScope moved kind alike.tokens) fun scope => ?_
  refine .after (same_readEnvironment kind alike.tokens) fun environment => ?_
  refine answers_then (answers_buildWith _ _ _) fun key s₁ added => added.answers_after ?_
  have title := alike_filledPart? kind alike.tokens .title
  refine steps_then (steps_titleView key title) fun s₂ titled => titled.answers_after ?_
  have description := alike_filledPart? kind alike.tokens .description
  exact steps_then (steps_describeView key description) fun s₃ described => described.opening _

theorem steps_addThemes (alike : ts.Alike ts') :
    s.Steps frames (s.addThemes ts) ((s.elsewhere frames).addThemes ts') := by
  refine steps_foldlM alike fun t t' same s₁ _ => ?_
  rw [same.text]
  exact steps_build _ _ _

theorem answers_executeViews (moved : s.frames.Alike frames) (alike : st.Alike st') :
    s.Answers frames (executeViews s st) (executeViews (s.elsewhere frames) st') := by
  unfold executeViews
  simp only [alike.keyword, alike.tokens.length]
  split
  · exact answers_executeView moved _ alike
  · split
    · exact answers_bare alike _
    · exact .after (same_checkTokens alike.tokens _ _ _ _) fun _ =>
        answers_done (steps_addThemes (alike.tokens.drop 1))
    · exact .unless (fun _ => ⟨rfl, rfl, rfl⟩) fun _ =>
        answers_done (steps_addThemes (alike.tokens.drop 1))
    · exact answers_bare alike _
    · exact .error ⟨rfl, rfl, rfl⟩

theorem same_readSeparation (alike : ts.Alike ts') (i : Nat) :
    Same (readSeparation ts i) (readSeparation ts' i) := by
  unfold readSeparation
  rw [alike.length]
  exact .ite (fun _ => same_readNumber alike i _ _) fun _ => .ok rfl

theorem same_readAutoLayout (alike : ts.Alike ts') :
    Same (readAutoLayout ts) (readAutoLayout ts') := by
  have direction : Same (readDirection ts 1) (readDirection ts' 1) := by
    unfold readDirection
    rw [alike.length]
    exact .ite (fun _ => same_readWord alike 1 _) fun _ => .ok rfl
  refine .after direction fun _ => .after (same_readSeparation alike 2) fun _ => ?_
  exact .after (same_readSeparation alike 3) fun _ => .ok rfl

theorem answers_executeViewSetting (key : String) (alike : st.Alike st') (block : Block) :
    s.Answers frames (executeViewSetting s key st block)
      (executeViewSetting (s.elsewhere frames) key st' block) := by
  unfold executeViewSetting
  simp only [alike.keyword, alike.tokens.text]
  split
  · exact .after (same_checkTokens alike.tokens _ _ _ _) fun _ => answers_build _ _ _
  · exact .after (same_checkTokens alike.tokens _ _ _ _) fun _ => answers_build _ _ _
  · exact .after (same_checkTokens alike.tokens _ _ _ _) fun _ =>
      .after (same_readAutoLayout alike.tokens) fun _ => answers_build _ _ _
  · exact .after (same_checkTokens alike.tokens _ _ _ _) fun _ =>
      .after (same_readAutoLayout alike.tokens) fun _ => answers_build _ _ _
  · exact answers_bare alike _
  · exact .error ⟨rfl, rfl, rfl⟩

theorem steps_includeAll (moved : s.frames.Alike frames) (key : String) (alike : ts.Alike ts') :
    s.Steps frames (s.includeAll key ts) ((s.elsewhere frames).includeAll key ts') := by
  refine .bind (matches_readExpressions moved alike) fun _ _ selections => ?_
  refine steps_foldlM selections fun i j same s₁ _ => ?_
  dsimp only
  rw [same]
  exact steps_build _ _ _

theorem steps_excludeAll (moved : s.frames.Alike frames) (key : String) (alike : ts.Alike ts') :
    s.Steps frames (s.excludeAll key ts) ((s.elsewhere frames).excludeAll key ts') := by
  refine .bind (matches_readExpressions moved alike) fun _ _ selections => ?_
  refine steps_foldlM selections fun i j same s₁ _ => ?_
  dsimp only
  rw [same]
  exact steps_build _ _ _

theorem answers_executeStaticView (moved : s.frames.Alike frames) (key : String)
    (alike : st.Alike st') :
    s.Answers frames (executeStaticView s key st)
      (executeStaticView (s.elsewhere frames) key st') := by
  unfold executeStaticView
  simp only [alike.keyword, alike.tokens.length]
  split
  · exact .unless (fun _ => ⟨rfl, rfl, rfl⟩) fun _ =>
      answers_done (steps_includeAll moved key (alike.tokens.drop 1))
  · exact .unless (fun _ => ⟨rfl, rfl, rfl⟩) fun _ =>
      answers_done (steps_excludeAll moved key (alike.tokens.drop 1))
  · exact answers_executeViewSetting key alike _

/-! ### Dynamic views -/

theorem answers_executeParallel (key : String) (st st' : Statement) :
    s.Answers frames (executeParallel s key st) (executeParallel (s.elsewhere frames) key st') :=
  steps_then (steps_build _ _ _) fun _ leaves => leaves.opening _

theorem same_readParticipant (moved : s.frames.Alike frames) (same : t.Alike t')
    (role : String) :
    Same (readParticipant s t role) (readParticipant (s.elsewhere frames) t' role) := by
  refine .after (same_resolveElement moved same role) fun id => ?_
  refine .after (same_element id _ _) fun e => ?_
  refine .ite (fun _ => .ok rfl) fun _ => .ite (fun _ => .ok rfl) fun _ => ?_
  exact .error ⟨rfl, rfl, rfl⟩

/-- An interaction has the same participants and the same description. -/
theorem steps_executeInteraction (moved : s.frames.Alike frames) (key : String)
    (order : Option String) (alike : ts.Alike ts') :
    s.Steps frames (executeInteraction s key order ts)
      (executeInteraction (s.elsewhere frames) key order ts') := by
  unfold executeInteraction
  simp only [alike.length, alike.text]
  refine .unless (fun _ => ⟨rfl, rfl, rfl⟩) fun _ => ?_
  cases alike with
  | nil => exact .error ⟨rfl, rfl, rfl⟩
  | cons source rest =>
    cases rest with
    | nil => exact .error ⟨rfl, rfl, rfl⟩
    | cons _ rest =>
      cases rest with
      | nil => exact .error ⟨rfl, rfl, rfl⟩
      | cons destination _ =>
        refine .after (same_readParticipant moved source _) fun a => ?_
        exact .after (same_readParticipant moved destination _) fun b => steps_build _ _ _

theorem steps_executeRelationshipLine (moved : s.frames.Alike frames) (key : String)
    (order : Option String) (alike : ts.Alike ts') :
    s.Steps frames (executeRelationshipLine s key order ts)
      (executeRelationshipLine (s.elsewhere frames) key order ts') := by
  unfold executeRelationshipLine
  simp only [alike.length, alike.text]
  cases alike with
  | nil => exact .error ⟨rfl, rfl, rfl⟩
  | cons first _ =>
    refine .unless (fun _ => ⟨rfl, rfl, rfl⟩) fun _ => ?_
    exact .after (same_resolveRelationship moved first) fun id => steps_build _ _ _

/-- The order and the form of a line are read off what its tokens say. -/
theorem answers_executeDynamicLine (moved : s.frames.Alike frames) (key : String)
    (alike : st.Alike st') :
    s.Answers frames (executeDynamicLine s key st)
      (executeDynamicLine (s.elsewhere frames) key st') := by
  have order : (splitOrder st'.tokens).1 = (splitOrder st.tokens).1 ∧
      (splitOrder st.tokens).2.Alike (splitOrder st'.tokens).2 := by
    unfold splitOrder
    rw [alike.tokens.text]
    split
    · exact ⟨rfl, alike.tokens.drop 1⟩
    · exact ⟨rfl, alike.tokens⟩
  obtain ⟨order, rest⟩ := order
  unfold executeDynamicLine
  simp only [order, rest.isAt]
  refine .ite (fun _ => ?_) fun _ => ?_
  · exact answers_done (steps_executeInteraction moved key _ rest)
  · exact answers_done (steps_executeRelationshipLine moved key _ rest)

theorem answers_executeDynamicView (moved : s.frames.Alike frames) (key : String)
    (alike : st.Alike st') :
    s.Answers frames (executeDynamicView s key st)
      (executeDynamicView (s.elsewhere frames) key st') := by
  unfold executeDynamicView isDynamicLine
  simp only [alike.keyword, alike.tokens.isAt, alike.tokens.text]
  refine .ite (fun _ => answers_executeDynamicLine moved key alike) fun _ => ?_
  split
  case h_1 | h_2 => exact .error ⟨rfl, rfl, rfl⟩
  case h_8 => exact answers_executeDynamicLine moved key alike
  all_goals exact answers_executeViewSetting key alike _

/-! ### Styles -/

/-- A statement that changes the workspace in a way that is never refused. -/
theorem answers_withBuilder (b : Builder) (block : Option Block) :
    s.Answers frames (.ok (block, s.withBuilder b))
      (.ok (block, (s.elsewhere frames).withBuilder b)) :=
  .ok ⟨rfl, rfl, rfl, rfl, rfl⟩

theorem answers_executeStyles (alike : st.Alike st') :
    s.Answers frames (executeStyles s st) (executeStyles (s.elsewhere frames) st') := by
  unfold executeStyles
  simp only [alike.keyword, alike.tokens.text]
  split
  · exact .after (same_checkTokens alike.tokens _ _ _ _) fun _ =>
      .after (same_requireBlock alike _ _) fun _ => answers_withBuilder _ _
  · exact .after (same_checkTokens alike.tokens _ _ _ _) fun _ =>
      .after (same_requireBlock alike _ _) fun _ => answers_withBuilder _ _
  · exact .error ⟨rfl, rfl, rfl⟩

theorem same_readElementSetting (alike : ts.Alike ts') :
    Same (readElementSetting colors ts) (readElementSetting colors ts') := by
  unfold readElementSetting
  rw [alike.text, alike.text]
  split
  case h_2 | h_15 => exact .ok rfl
  case h_1 | h_5 | h_6 | h_7 | h_8 | h_11 => exact .after (same_readWord alike 1 _) fun _ => .ok rfl
  case h_3 | h_4 | h_9 | h_10 => exact .after (same_readNumber alike 1 _ _) fun _ => .ok rfl
  case h_12 => exact .after (same_readPercentage alike 1) fun _ => .ok rfl
  case h_13 | h_14 => exact .after (same_readBool alike 1) fun _ => .ok rfl

theorem same_readRelationshipSetting (alike : ts.Alike ts') :
    Same (readRelationshipSetting colors ts) (readRelationshipSetting colors ts') := by
  unfold readRelationshipSetting
  rw [alike.text]
  split
  case h_2 | h_3 | h_4 | h_6 => exact .after (same_readWord alike 1 _) fun _ => .ok rfl
  case h_5 => exact .after (same_readBool alike 1) fun _ => .ok rfl
  case h_1 | h_7 | h_8 => exact .after (same_readNumber alike 1 _ _) fun _ => .ok rfl
  case h_9 | h_10 => exact .after (same_readPercentage alike 1) fun _ => .ok rfl
  case h_11 => exact .ok rfl

/-- A statement in a style is answered the same way elsewhere where its settings are read the
same way. -/
theorem answers_executeStyle {α : Type} {read : Tokens → Except Diagnostic (Option α)}
    (alike : st.Alike st') (reads : Same (read st.tokens) (read st'.tokens))
    (enter : Builder → α → Builder) (properties : PropertyTarget) :
    s.Answers frames (executeStyle read enter properties s st)
      (executeStyle read enter properties (s.elsewhere frames) st') := by
  unfold executeStyle
  rw [alike.keyword]
  refine .ite (fun _ => answers_bare alike _) fun _ => ?_
  refine .after (same_checkTokens alike.tokens _ _ _ _) fun _ => .after reads fun setting => ?_
  cases setting with
  | none => exact Leaves.refl.done
  | some setting => exact answers_withBuilder _ _

/-! ### Workspaces -/

theorem answers_executeRoot (alike : st.Alike st') :
    s.Answers frames (executeRoot s st) (executeRoot (s.elsewhere frames) st') := by
  unfold executeRoot
  simp only [alike.keyword, alike.tokens.isAt, alike.tokens.text?]
  refine .unless (fun _ => ⟨rfl, rfl, rfl⟩) fun _ => .unless (fun _ => ⟨rfl, rfl, rfl⟩) fun _ => ?_
  refine .after (same_checkTokens alike.tokens _ _ _ _) fun _ => ?_
  exact .after (same_requireBlock alike _ _) fun _ => answers_withBuilder _ _

theorem answers_executeWorkspace (alike : st.Alike st') :
    s.Answers frames (executeWorkspace s st) (executeWorkspace (s.elsewhere frames) st') := by
  unfold executeWorkspace
  simp only [alike.keyword, alike.tokens.text?]
  split
  · exact .after (same_checkTokens alike.tokens _ _ _ _) fun _ => answers_withBuilder _ _
  · exact .after (same_checkTokens alike.tokens _ _ _ _) fun _ => answers_withBuilder _ _
  · exact answers_bare alike _
  · refine .after (same_checkBare alike) fun _ => ?_
    exact .unless (fun _ => ⟨rfl, rfl, rfl⟩) fun _ => .ok ⟨rfl, rfl, rfl, rfl, rfl⟩
  · refine .after (same_checkBare alike) fun _ => ?_
    exact .unless (fun _ => ⟨rfl, rfl, rfl⟩) fun _ => .ok ⟨rfl, rfl, rfl, rfl, rfl⟩
  · exact answers_bare alike _
  · exact .error ⟨rfl, rfl, rfl⟩

theorem answers_executeConfiguration (alike : st.Alike st') :
    s.Answers frames (executeConfiguration s st)
      (executeConfiguration (s.elsewhere frames) st') := by
  have scope : Same (readScope st.tokens 1) (readScope st'.tokens 1) := by
    unfold readScope
    rw [alike.tokens.text]
    refine .ite (fun _ => .ok rfl) fun _ => ?_
    exact .map ((same_readWord alike.tokens 1 _).mono fun _ _ => congrArg some)
  unfold executeConfiguration
  simp only [alike.keyword]
  split
  · exact .after (same_checkTokens alike.tokens _ _ _ _) fun _ =>
      .after scope fun _ => answers_withBuilder _ _
  · exact .after (same_checkTokens alike.tokens _ _ _ _) fun _ =>
      .after (same_readWord alike.tokens 1 _) fun _ => answers_withBuilder _ _
  · exact answers_bare alike _
  · exact .error ⟨rfl, rfl, rfl⟩

theorem answers_executeUser (alike : st.Alike st') :
    s.Answers frames (executeUser s st) (executeUser (s.elsewhere frames) st') := by
  unfold executeUser
  simp only [alike.tokens.text]
  refine .after (same_checkTokens alike.tokens _ _ _ _) fun _ => ?_
  exact .after (same_readWord alike.tokens 1 _) fun _ => answers_withBuilder _ _

/-! ### Every statement -/

/-- A statement comes to the same elsewhere. -/
theorem answers_executeStatement (moved : s.frames.Alike frames) (alike : st.Alike st') :
    s.Answers frames (executeStatement colors s st) (executeStatement colors (s.elsewhere frames) st') := by
  have here : (s.elsewhere frames).frames.block? = s.frames.block? := moved.block?
  unfold executeStatement executeBrace executeWords
  rw [alike.tokens.isEmpty, here]
  refine .ite (fun _ => ?_) fun _ => ?_
  · split
    · exact answers_executeParallel _ st st'
    · exact answers_executeParallel _ st st'
    · exact .error ⟨rfl, rfl, rfl⟩
  · split
    · exact answers_executeRoot alike
    · rename_i block _
      cases block with
      | workspace => exact answers_executeWorkspace alike
      | model | group | element | deploymentEnvironment | deploymentNode =>
        exact answers_executeModel moved alike _
      | relationship id => exact answers_executeItem _ alike
      | properties target => exact answers_executeProperty target alike
      | perspectives ref => exact answers_executePerspective ref alike
      | views => exact answers_executeViews moved alike
      | staticView key => exact answers_executeStaticView moved key alike
      | dynamicView key | parallel key => exact answers_executeDynamicView moved key alike
      | styles => exact answers_executeStyles alike
      | elementStyle tag =>
        exact answers_executeStyle alike (same_readElementSetting alike.tokens) _ _
      | relationshipStyle tag =>
        exact answers_executeStyle alike (same_readRelationshipSetting alike.tokens) _ _
      | configuration => exact answers_executeConfiguration alike
      | users => exact answers_executeUser alike

/-- The sessions are the same but for the places at which their blocks were opened. -/
structure Session.Alike (s s' : Session) : Prop where
  same : s' = s.elsewhere s'.frames
  frames : s.frames.Alike s'.frames

theorem Session.Alike.refl (s : Session) : s.Alike s :=
  ⟨rfl, .refl s.frames⟩

theorem Session.Alike.of_moved (moved : s.frames.Alike frames) : s.Alike (s.elsewhere frames) :=
  ⟨rfl, moved⟩

theorem alike_openBlock (moved : s.frames.Alike frames) (block : Block) (line line' : Nat)
    (span span' : Span) :
    (s.openBlock block line span).Alike ((s.elsewhere frames).openBlock block line' span') := by
  have scope : (s.elsewhere frames).scopeOf block = s.scopeOf block := by
    have outer : (s.elsewhere frames).frames.scope = s.frames.scope := moved.scope
    simp only [scopeOf, outer]
    rfl
  exact ⟨rfl, .cons ⟨rfl, scope⟩ moved⟩

/-- A statement comes to the same, and the block that it may open differs in its place alone.
-/
theorem matches_runStatement (moved : s.frames.Alike frames) (alike : st.Alike st')
    (line line' : Nat) :
    Matches (runStatement colors s st line) (runStatement colors (s.elsewhere frames) st' line')
      Session.Alike Diagnostic.Alike := by
  refine answers_then (answers_executeStatement moved alike) fun block s₁ leaves => ?_
  have moved₁ := leaves.moved moved
  rw [alike.opensBlock]
  refine .ite (fun _ => ?_) fun _ => .ok (.of_moved moved₁)
  cases block with
  | none => exact .error ⟨rfl, rfl, rfl⟩
  | some block => exact .ok (alike_openBlock moved₁ block line line' _ _)

/-- Closing takes the same block away, with the same refusals. -/
theorem matches_closeBlock (moved : s.frames.Alike frames) (ts ts' : Tokens) :
    Matches (s.closeBlock ts) ((s.elsewhere frames).closeBlock ts') Session.Alike
      Diagnostic.Alike := by
  have opened : (s.elsewhere frames).frames = frames := rfl
  unfold closeBlock
  rw [opened]
  generalize own : s.frames = outer at moved
  cases moved with
  | nil => exact .error ⟨rfl, rfl, rfl⟩
  | @cons f f' rest rest' first moved =>
    have moved : ({ s with frames := rest } : Session).frames.Alike rest' := moved
    dsimp only
    rw [first.block]
    split
    · exact .ok (.of_moved moved)
    · rename_i key _
      have ended : Session.Answers { s with frames := rest } rest'
          (buildWith { s with frames := rest } (ts.span 0) (Builder.endParallel key))
          (buildWith { s.elsewhere (f' :: rest') with frames := rest' } (ts'.span 0)
            (Builder.endParallel key)) := answers_buildWith _ _ _
      generalize buildWith { s with frames := rest } _ _ = x at ended ⊢
      generalize buildWith { s.elsewhere (f' :: rest') with frames := rest' } _ _ = y at ended ⊢
      cases ended with
      | error alike => exact .error alike
      | @ok a b _ _ reached =>
        obtain ⟨closed, s₁⟩ := a
        obtain ⟨_, _⟩ := b
        obtain ⟨rfl, rfl, leaves⟩ := reached
        cases closed with
        | true => exact .ok (.of_moved (leaves.moved moved))
        | false => exact .error ⟨rfl, rfl, rfl⟩
    · exact .ok (.of_moved moved)

/-! ### What statements have in common -/

theorem Statement.Alike.refl (st : Statement) : st.Alike st :=
  ⟨.refl st.tokens, rfl⟩

/-- Statements leave the open blocks, the constants and the mark of the end alone. -/
theorem leaves_executeStatement (st : Statement) :
    Gives (executeStatement colors s st) fun answer => s.Leaves answer.2 := by
  intro answer executed
  have twice : s.Answers s.frames (executeStatement colors s st)
      (executeStatement colors (s.elsewhere s.frames) st) :=
    answers_executeStatement (.refl s.frames) (.refl st)
  rw [show s.elsewhere s.frames = s from rfl, executed] at twice
  cases twice with
  | ok reached => exact reached.2.leaves

/-- What a statement is refused with is an error. -/
theorem severe_runStatement (st : Statement) (line : Nat) :
    Yields (runStatement colors s st line) (fun _ => True) (·.severity = .error) :=
  (matches_runStatement (Frames.Alike.refl s.frames) (.refl st) line line).severe

end Edifice.Language
