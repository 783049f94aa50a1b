import Edifice.Proofs.Builder.Views
import Edifice.Proofs.View.Numbering

/-!
The step numbers of the views of a builder.

Lines that are appended and parallel blocks that are opened or closed turn the counter of
their view, and nothing else touches it.  So the counter of every view of a reachable
builder is a fresh one after some turns (`Reachable.counting`), and its numbers follow the
parallel blocks of the view.
-/

open Edifice.Change

namespace Edifice

/-- The steps of the view are counted from a fresh counter on. -/
def View.Counts (v : View) : Prop :=
  ∃ turns, v.steps = StepCounter.after {} turns

/-- A view counts on as its counter does. -/
theorem View.Counts.turn {v v' : View} (counts : v.Counts) (t : StepCounter.Turn)
    (turned : v'.steps = v.steps.turn t) : v'.Counts := by
  obtain ⟨turns, same⟩ := counts
  refine ⟨turns ++ [t], ?_⟩
  rw [turned, same, StepCounter.after_append]
  rfl

namespace Builder

variable {b b' : Builder} {key : String}

def Counting (b : Builder) : Prop :=
  ∀ v ∈ b.views.views, v.Counts

/-- All steps are still counted after the change if they were before. -/
def Recounts (b b' : Builder) : Prop :=
  b.Counting → b'.Counting

instance : IsPreorder Builder Recounts where
  refl _ := id
  trans _ _ _ first second := second ∘ first

theorem recounts_putView {v : View} (counts : v.Counts) : Recounts b (b.putView key v) := by
  intro counting v' member
  rcases mem_views_putView member with rfl | earlier
  · exact counts
  · exact counting v' earlier

/-- Editing a view keeps the steps counted if the edit keeps those of its view. -/
theorem recounts_editView {α : Type} {f : View → α × View}
    (own : ∀ v, v.Counts → (f v).2.Counts) : (editView key f).Moves Recounts := by
  intro b a b' done counting
  obtain ⟨v, found, -, rfl⟩ := editView_eq_ok.mp done
  exact recounts_putView (own v (counting v (mem_of_view found))) counting

theorem editsMove_recounts (key : String) :
    EditsMove key (fun v v' => v.Counts → v'.Counts) Recounts where
  edit := recounts_editView
  contents _ _ _ := id

/-- A view is declared with a fresh counter. -/
theorem recounts_addView (kind : ViewKind) (chosen : Option String) (scope : Option ElementId)
    (environment : Option String) : (addView kind chosen scope environment).Moves Recounts := by
  refine .bind .ask fun _ => .bind (moves_chooseKey (fun _ => id) chosen) fun _ => ?_
  exact .bind (.modify fun b => recounts_putView ⟨[], rfl⟩) fun _ => .pure

/-- A call that succeeds turns counters, and does nothing else to them. -/
theorem Call.recounts (c : Call) : c.perform.Moves Recounts := by
  have line : ∀ {key : String} (l : ViewLine) (order : Option String),
      (updateView key (·.appendLine l order)).Moves Recounts := fun l order =>
    recounts_editView fun v counts => counts.turn .draw rfl
  cases c with
  | addView => exact recounts_addView _ _ _ _
  | setViewTitle | setViewDescription | setAutoLayout =>
    exact recounts_editView fun _ counts => counts
  | addViewProperty | excludeElement | excludeRelationship =>
    exact .bind .ask fun _ => recounts_editView fun _ counts => counts
  | includeElement key id =>
    exact .bind .ask fun _ => (editsMove_recounts key).insertViewElement id true
  | includeRelationship key id => exact (editsMove_recounts key).includeRelationship id
  | includeDefault key => exact (editsMove_recounts key).includeDefault
  | addInteraction | addRelationshipLine =>
    exact .bind .ask fun _ => .bind .ask fun l => line l _
  | startParallel =>
    exact .bind .ask fun _ => recounts_editView fun v counts => counts.turn .startParallel rfl
  | endParallel =>
    exact .bind .ask fun _ => recounts_editView fun v counts => counts.turn .endParallel rfl
  | _ =>
    intro b a b' done counting
    have same : b'.views.entries = b.views.entries := Call.keepsViews _ rfl b a b' done
    rw [Counting, ViewSet.views, same]
    exact counting

/-- The steps of every view of a reachable builder are counted from a fresh counter on. -/
theorem Reachable.counting (reachable : b.Reachable) : b.Counting := by
  obtain ⟨name, description, run⟩ := reachable
  exact run.moved Call.recounts (List.forall_mem_nil _)

/-- **Step numbers follow the block structure.**  Whatever is asked of a fresh counter, the
value never exceeds the highest number given; outside of all blocks every number is higher
than all before it; inside of a block the numbers of the block itself are consecutive; and a
block inside of another, once it is closed, leaves the value and the next number as they
were.  The counter of a view is never anything else than a fresh one of which this has been
asked. -/
theorem steps_follow_blocks :
    (∀ turns, StepCounter.FollowsBlocks turns) ∧
      ∀ b : Builder, b.Reachable → ∀ v ∈ b.views.views,
        ∃ turns, v.steps = StepCounter.after {} turns :=
  ⟨StepCounter.followsBlocks, fun _ reachable => reachable.counting⟩

/-- The shop with a step inside of a parallel block of its dynamic view. -/
def steppedShop : Builder :=
  shop.run [.startParallel "Steps", .addRelationshipLine "Steps" ⟨5⟩ "" none]

/-- The steps of the shop are counted from a fresh counter on, and a block with two steps
inside of the block leaves the number that comes next as it was. -/
theorem steps_of_shop :
    steppedShop.Reachable ∧
      (∃ v ∈ steppedShop.views.views, v.steps = { value := 1, highest := 1, saved := [0] } ∧
        ∃ turns, v.steps = StepCounter.after {} turns) ∧
      StepCounter.openBlocks [.startParallel, .draw] = 1 ∧
      StepCounter.Passage [.draw, .draw] 2 ∧
      (StepCounter.after {} ([.startParallel, .draw] ++
        (.startParallel :: [.draw, .draw] ++ [.endParallel]))).next.1 = 2 := by
  have reachable : steppedShop.Reachable :=
    reachable_shop.leads (leads_iff.mpr ⟨_, rfl⟩)
  have steps : ∃ v ∈ steppedShop.views.views,
      v.steps = { value := 1, highest := 1, saved := [0] } := by decide +kernel
  obtain ⟨v, member, counter⟩ := steps
  have passage : StepCounter.Passage [.draw, .draw] 2 := .draw (.draw .nil)
  have follows := steps_follow_blocks.1 [.startParallel, .draw]
  have next := (follows.restored Nat.one_pos _ _ passage).2.2
  exact ⟨reachable, ⟨v, member, counter, steps_follow_blocks.2 _ reachable v member⟩, rfl,
    passage, next⟩

end Builder

end Edifice
