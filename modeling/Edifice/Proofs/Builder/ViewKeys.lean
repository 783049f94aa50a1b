import Edifice.Proofs.Builder.Frames
import Edifice.Proofs.Builder.Referents

/-!
The keys of views.

A view gets its key when it is added and keeps it: no other call adds a key or takes one away
(`Call.keeps_keys`).  A key that an author chooses is checked, and a generated one is made
of letters, a hyphen and digits, so all keys are valid (`Reachable.keyed`).  A generated key is
that of no view; and since views are never taken away, it is none of the keys that were
generated before (`view_keys_of_reachable`).
-/

open Edifice.Change

namespace Edifice

/-! ### Generated keys -/

/-- The key is one that is generated for views of the kind: the start of the kind, a hyphen and
at least three digits. -/
def ViewKind.Numbers (kind : ViewKind) (key : String) : Prop :=
  ∃ digits : List Char, 3 ≤ digits.length ∧ (∀ d ∈ digits, d.isDigit = true) ∧
    key = kind.keyStem ++ "-" ++ String.ofList digits

theorem Text.le_length_padded (width n : Nat) : width ≤ (Text.padded width n).toList.length := by
  simp only [padded, String.toList_append, String.toList_ofList, List.length_append,
    List.length_replicate, String.length_toList]
  omega

/-- Digits and the zeros in front of them are digits. -/
theorem Text.isDigit_of_mem_padded {width n : Nat} {d : Char}
    (member : d ∈ (Text.padded width n).toList) : d.isDigit = true := by
  simp only [padded, Nat.toString_eq_repr, String.toList_append, String.toList_ofList,
    List.mem_append, List.mem_replicate, Nat.toList_repr] at member
  rcases member with ⟨-, rfl⟩ | member
  · rfl
  · exact Nat.isDigit_of_mem_toDigits (by decide) (by decide) member

theorem ViewKind.numbers_generatedKey (kind : ViewKind) (n : Nat) :
    kind.Numbers (generatedKey kind.keyStem n) := by
  refine ⟨_, Text.le_length_padded 3 n, fun _ => Text.isDigit_of_mem_padded, ?_⟩
  rw [generatedKey, String.ofList_toList]

/-- Letters, a hyphen and digits are a valid key. -/
theorem ViewKind.Numbers.isViewKey {kind : ViewKind} {key : String} (numbers : kind.Numbers key) :
    isViewKey key = true := by
  obtain ⟨digits, long, numeric, rfl⟩ := numbers
  have stem : kind.keyStem.toList.all Char.isAlphanum = true := by
    cases kind <;> decide
  have text : (kind.keyStem ++ "-" ++ String.ofList digits).toList =
      kind.keyStem.toList ++ '-' :: digits := by
    simp
  rw [Edifice.isViewKey, Bool.and_eq_true, bne_iff_ne, text, List.all_eq_true]
  constructor
  · intro empty
    simp [empty] at text
  · intro c member
    rcases List.mem_append.mp member with letter | rest
    · simp [List.all_eq_true.mp stem c letter]
    · rcases List.mem_cons.mp rest with rfl | digit
      · rfl
      · simp [Char.isAlphanum, numeric c digit]

/-- The search does not go back. -/
theorem le_freshNumber (taken : List String) (stem : String) (limit n : Nat) :
    n ≤ freshNumber taken stem limit n := by
  induction limit generalizing n with
  | zero => exact Nat.le_refl n
  | succ limit ih =>
    unfold freshNumber
    split
    · exact Nat.le_of_succ_le (ih (n + 1))
    · exact Nat.le_refl n

namespace Builder

variable {b b' : Builder} {kind : ViewKind} {key : String} {scope : Option ElementId}
  {environment : Option String}

/-- The number of the last key that was generated for views of the kind. -/
def lastNumber (b : Builder) (kind : ViewKind) : Nat :=
  (b.generatedKeys.get? kind.keyStem).getD 0

/-- A generated key has the first number after the last one whose key is free, however many
are taken. -/
theorem generateKey_first (b : Builder) (kind : ViewKind) : ∃ n,
    (b.generateKey kind).1 = generatedKey kind.keyStem n ∧ b.lastNumber kind < n ∧
      ∀ i, b.lastNumber kind < i → i < n → generatedKey kind.keyStem i ∈ b.views.keys :=
  ⟨_, rfl, le_freshNumber .., fun _ later => mem_of_lt_freshNumber later⟩

/-! ### Adding a view -/

/-- A view of the kind may be about the element, in the environment: where the kind needs a
scope there is one, an element that is given is of a kind that suits, and a deployment view has
an environment. -/
structure Suits (b : Builder) (kind : ViewKind) (scope : Option ElementId)
    (environment : Option String) : Prop where
  given : kind.requiresScope = true → scope.isSome
  suitable : ∀ id, scope = some id → ∃ e, b.model.element? id = some e ∧ kind.acceptsScope e.kind
  deployed : kind = .deployment → environment.isSome

/-- The checks of a new view come down to what its kind needs. -/
theorem checkViewSubject_eq_ok :
    b.checkViewSubject kind scope environment = .ok () ↔ b.Suits kind scope environment := by
  have environment_given : ¬ (kind = .deployment ∧ environment = none) ↔
      (kind = .deployment → environment.isSome) := by
    rw [not_and, ← Option.ne_none_iff_isSome]
  have scope_given : b.model.checkViewScope kind scope = .ok () ↔
      (kind.requiresScope = true → scope.isSome) ∧
        ∀ id, scope = some id → ∃ e, b.model.element? id = some e ∧ kind.acceptsScope e.kind := by
    rw [Model.checkViewScope_eq_ok]
    cases scope with
    | none => simp
    | some id => simp
  have checked : b.checkViewSubject kind scope environment = .ok () ↔
      b.model.checkViewScope kind scope = .ok () ∧
        ¬ (kind = .deployment ∧ environment = none) := by
    simp only [checkViewSubject, Check.then_eq_ok, Check.throw_eq, Check.pure_eq,
      Check.refuse_eq_ok, and_true]
  rw [checked, environment_given, scope_given]
  exact ⟨fun ⟨⟨given, suitable⟩, deployed⟩ => ⟨given, suitable, deployed⟩,
    fun suits => ⟨⟨suits.given, suits.suitable⟩, suits.deployed⟩⟩

/-- A chosen key is accepted exactly if it is valid and free. -/
theorem checkKey_eq_ok :
    b.checkKey key = .ok () ↔ isViewKey key = true ∧ key ∉ b.views.keys := by
  have taken : (b.views.view? key).isSome ↔ key ∈ b.views.keys := by
    rw [← hasView_iff, HasView, Option.isSome_iff_exists]
    simp only [view_eq_ok]
  unfold checkKey
  by_cases valid : isViewKey key = true
  · by_cases listed : key ∈ b.views.keys
    · simp [valid, taken.mpr listed, listed]
    · have free : (b.views.view? key).isSome = false :=
        Bool.of_not_eq_true fun found => listed (taken.mp found)
      simp [valid, free, listed]
  · simp [valid]

/-- Where no key is chosen, a view that has what it needs is added under a generated one. -/
theorem addView_generated (suits : b.Suits kind scope environment) :
    addView kind none scope environment b =
      .ok (b.generateKey kind).1 ((b.generateKey kind).2.putView (b.generateKey kind).1
        { key := (b.generateKey kind).1, kind, scope, environment }) :=
  addView_eq_ok.mpr ⟨checkViewSubject_eq_ok.mpr suits, _, modifyGet_eq_ok.mpr rfl, rfl⟩

/-- A chosen key is taken as it is where it is valid and free. -/
theorem addView_chosen (suits : b.Suits kind scope environment) {answer : String} :
    addView kind (some key) scope environment b = .ok answer b' ↔
      isViewKey key = true ∧ key ∉ b.views.keys ∧ answer = key ∧
        b' = b.putView key { key, kind, scope, environment } := by
  simp only [addView_eq_ok, chooseKey_some_eq_ok, checkKey_eq_ok]
  constructor
  · rintro ⟨-, _, ⟨⟨valid, free⟩, rfl, rfl⟩, rfl⟩
    exact ⟨valid, free, rfl, rfl⟩
  · rintro ⟨valid, free, rfl, rfl⟩
    exact ⟨checkViewSubject_eq_ok.mpr suits, b, ⟨⟨valid, free⟩, rfl, rfl⟩, rfl⟩

/-- A view is added only where it has what it needs. -/
theorem suits_of_addView {chosen : Option String}
    (done : addView kind chosen scope environment b = .ok key b') :
    b.Suits kind scope environment :=
  checkViewSubject_eq_ok.mp (addView_eq_ok.mp done).1

/-! ### The keys of all views -/

def Keyed (b : Builder) : Prop :=
  ∀ key ∈ b.views.keys, isViewKey key = true

/-- Editing a view leaves the keys alone, whatever becomes of the view. -/
theorem keys_editView {α : Type} (f : View → α × View) :
    (editView key f).Keeps fun b : Builder => b.views.keys := by
  intro b a b' done
  obtain ⟨v, found, -, rfl⟩ := editView_eq_ok.mp done
  exact keys_putView found _

def Call.addsView : Call → Bool
  | .addView .. => true
  | _ => false

/-- Every other call leaves the keys as they are. -/
theorem Call.keeps_keys (c : Call) (other : c.addsView = false) :
    c.perform.Keeps fun b : Builder => b.views.keys := by
  intro b a b' done
  cases draws : c.draws with
  | false => exact congrArg (List.map Prod.fst) (c.keepsViews draws b a b' done)
  | true =>
    obtain ⟨key, named⟩ : ∃ key, c.view? = some key := by
      obtain ⟨key, named⟩ := c.exists_key draws a
      refine ⟨key, ?_⟩
      cases c <;> first | exact named | cases other
    exact c.keeps_edited named keys_editView b a b' done

/-- The view that is added has the key that is answered, which was free and is valid. -/
theorem keys_addView {chosen : Option String}
    (done : addView kind chosen scope environment b = .ok key b') :
    isViewKey key = true ∧ key ∉ b.views.keys ∧ b'.views.keys = b.views.keys ++ [key] := by
  have suits := suits_of_addView done
  have entered : ∀ keys, key ∉ b.views.keys →
      ({ b with generatedKeys := keys }.putView key { key, kind, scope, environment }).views.keys =
        b.views.keys ++ [key] := by
    intro keys free
    rw [ViewSet.keys, entries_declared free keys, List.map_append]
    rfl
  cases chosen with
  | none =>
    rw [addView_generated suits] at done
    obtain ⟨rfl, rfl⟩ := EStateM.Result.ok.inj done
    obtain ⟨n, numbered, -⟩ := b.generateKey_first kind
    have free : (b.generateKey kind).1 ∉ b.views.keys := generateKey_not_mem b kind
    refine ⟨?_, free, entered _ free⟩
    rw [numbered]
    exact (kind.numbers_generatedKey n).isViewKey
  | some key =>
    obtain ⟨valid, free, rfl, rfl⟩ := (addView_chosen suits).mp done
    exact ⟨valid, free, entered b.generatedKeys free⟩

/-- A call that succeeds keeps all keys valid. -/
theorem Call.keyed (c : Call) (keyed : b.Keyed) {a : c.Answer} (done : c.perform b = .ok a b') :
    b'.Keyed := by
  cases adds : c.addsView with
  | false =>
    have same : b'.views.keys = b.views.keys := c.keeps_keys adds b a b' done
    rw [Keyed, same]
    exact keyed
  | true =>
    cases c with
    | addView kind chosen scope environment =>
      obtain ⟨valid, -, keys⟩ := keys_addView done
      rw [Keyed, keys]
      exact List.forall_mem_append.mpr ⟨keyed, List.forall_mem_singleton.mpr valid⟩
    | _ => cases adds

/-- The keys of the views of a reachable builder are valid. -/
theorem Reachable.keyed (reachable : Reachable b) : b.Keyed := by
  obtain ⟨name, description, run⟩ := reachable
  induction run with
  | refl => exact List.forall_mem_nil _
  | @call b₁ _ c ih =>
    exact c.holds_after ih fun _ _ => c.keyed ih

/-- The key was generated by a call on the way to the builder. -/
def Generated (b : Builder) (key : String) : Prop :=
  ∃ b₁ b₂ kind scope environment, Reachable b₁ ∧
    addView kind none scope environment b₁ = .ok key b₂ ∧ Leads b₂ b

/-- A key that was generated is that of a view ever after. -/
theorem Generated.taken (generated : b.Generated key) : key ∈ b.views.keys := by
  obtain ⟨b₁, b₂, kind, scope, environment, reachable, done, run⟩ := generated
  let c : Call := .addView kind none scope environment
  have has : b₂.Has (.view key) :=
    c.has_answered reachable.grown done _ (List.mem_singleton_self _)
  have reachable₂ := reachable.leads (Leads.of_ok c done)
  exact hasView_iff.mp (run.has reachable₂.grown has)

/-- **Every view has a valid key of its own, and a generated key is always new.**  In every
reachable builder the key that a view is stored under is valid and is its own, and the view is
what is found under it.  Where a view has what its kind needs, it is added without a key: the
key that is answered is valid, has the form of generated keys, is that of no view and of no
view before, and is the first of that form, after the last one generated for the kind, that is
free.  With a key, such a view is added exactly if the key is valid and free. -/
theorem view_keys_of_reachable (reachable : b.Reachable) :
    (∀ key v, (key, v) ∈ b.views.entries →
      isViewKey key = true ∧ v.key = key ∧ b.view key = .ok v) ∧
    ∀ kind scope environment, b.Suits kind scope environment →
      (∃ key b', addView kind none scope environment b = .ok key b' ∧
        b'.view key = .ok { key, kind, scope, environment } ∧
        isViewKey key = true ∧ kind.Numbers key ∧ key ∉ b.views.keys ∧ ¬ b.Generated key ∧
        ∃ n, key = generatedKey kind.keyStem n ∧ b.lastNumber kind < n ∧
          ∀ i, b.lastNumber kind < i → i < n → generatedKey kind.keyStem i ∈ b.views.keys) ∧
      ∀ key, (∃ answer b', addView kind (some key) scope environment b = .ok answer b') ↔
        isViewKey key = true ∧ key ∉ b.views.keys := by
  refine ⟨fun key v listed => ?_, fun kind scope environment suits => ?_⟩
  · have drawn := reachable.drawn
    have valid := reachable.keyed key (List.mem_map_of_mem (f := Prod.fst) listed)
    exact ⟨valid, drawn.own _ listed, drawn.view_of_entry listed⟩
  constructor
  · have added := addView_generated suits
    obtain ⟨valid, free, -⟩ := keys_addView added
    obtain ⟨n, numbered, later, passed⟩ := b.generateKey_first kind
    refine ⟨_, _, added, view_putView_self .., valid, ?_, free, fun old => free old.taken, n,
      numbered, later, passed⟩
    rw [numbered]
    exact kind.numbers_generatedKey n
  · intro key
    simp only [addView_chosen suits]
    constructor
    · rintro ⟨_, _, valid, free, -, -⟩
      exact ⟨valid, free⟩
    · rintro ⟨valid, free⟩
      exact ⟨key, _, valid, free, rfl, rfl⟩

/-- A shop whose author gave two of three dynamic views keys of the generated form. -/
def numberedShop : Builder :=
  (new "Shop" "").run [
    .addView .dynamic (some "Dynamic-001") none none, .addView .dynamic none none none,
    .addView .dynamic (some "Dynamic-003") none none]

/-- The next generated key passes over the one that the author has taken. -/
theorem view_keys_of_numberedShop :
    numberedShop.Reachable ∧ numberedShop.Suits .dynamic none none ∧
      numberedShop.views.keys = ["Dynamic-001", "Dynamic-002", "Dynamic-003"] ∧
      ∃ b', addView .dynamic none none none numberedShop = .ok "Dynamic-004" b' ∧
        ¬ numberedShop.Generated "Dynamic-004" ∧
        ¬ ∃ answer b', addView .dynamic (some "Dynamic-002") none none numberedShop =
          .ok answer b' := by
  have reachable : numberedShop.Reachable := ⟨"Shop", "", leads_iff.mpr ⟨_, rfl⟩⟩
  have suits : numberedShop.Suits .dynamic none none := ⟨nofun, nofun, nofun⟩
  have keys : numberedShop.views.keys = ["Dynamic-001", "Dynamic-002", "Dynamic-003"] := by
    decide +kernel
  have answered : (addView .dynamic none none none).answer numberedShop = .ok "Dynamic-004" := by
    decide +kernel
  obtain ⟨⟨key, b', added, -, -, -, -, new, -⟩, chosen⟩ :=
    (view_keys_of_reachable reachable).2 .dynamic none none suits
  obtain ⟨rfl, -⟩ := EStateM.Result.ok.inj (added.symm.trans (answer_eq_ok.mp answered))
  refine ⟨reachable, suits, keys, b', added, new, fun added => ?_⟩
  have free := ((chosen "Dynamic-002").mp added).2
  rw [keys] at free
  exact free (by decide)

end Builder

end Edifice
