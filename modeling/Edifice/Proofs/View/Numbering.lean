import Edifice.View.Steps
import Mathlib.Data.List.Basic

/-!
How the step numbers of a dynamic view follow its parallel blocks.

A counter is turned by drawing a number, opening a block or closing one
(`StepCounter.Turn`).  Turns that open and close all their blocks among themselves are a
passage (`Passage`).  Inside of a block a passage moves the value by as many numbers as it
draws outside of blocks of its own (`Passage.after`), so that a block inside of another
leaves no trace but in the highest number.  Outside of all blocks the value is the highest
number (`Consistent.level`), after which the numbering goes on.
-/

namespace Edifice.StepCounter

/-- What is asked of a counter. -/
inductive Turn where
  | draw
  | startParallel
  | endParallel
deriving DecidableEq, Repr

def turn (c : StepCounter) : Turn → StepCounter
  | .draw => c.next.2
  | .startParallel => c.startParallel
  | .endParallel => c.endParallel.2

def after (c : StepCounter) (turns : List Turn) : StepCounter :=
  turns.foldl turn c

/-- The number that a turn draws. -/
def drawn (c : StepCounter) : Turn → List Nat
  | .draw => [c.next.1]
  | .startParallel | .endParallel => []

def numbers (c : StepCounter) : List Turn → List Nat
  | [] => []
  | t :: rest => c.drawn t ++ (c.turn t).numbers rest

/-- The number of open blocks after a turn; where none is open, none can be closed. -/
def Turn.depth (open_ : Nat) : Turn → Nat
  | .draw => open_
  | .startParallel => open_ + 1
  | .endParallel => open_ - 1

def openBlocks (turns : List Turn) : Nat :=
  turns.foldl Turn.depth 0

/-- `Passage turns own`: the turns open and close all their blocks among themselves, and
draw `own` numbers outside of them. -/
inductive Passage : List Turn → Nat → Prop where
  | nil : Passage [] 0
  | draw {rest : List Turn} {own : Nat} (later : Passage rest own) :
      Passage (.draw :: rest) (own + 1)
  | block {inner rest : List Turn} {inside own : Nat} (body : Passage inner inside)
      (later : Passage rest own) :
      Passage (.startParallel :: inner ++ .endParallel :: rest) own

/-! ### Turns one after the other -/

variable {c : StepCounter} {turns turns' : List Turn} {given : List Nat} {own own' : Nat}

theorem after_append (c : StepCounter) (turns turns' : List Turn) :
    c.after (turns ++ turns') = (c.after turns).after turns' :=
  List.foldl_append

theorem after_cons (c : StepCounter) (t : Turn) (turns : List Turn) :
    c.after (t :: turns) = (c.turn t).after turns :=
  rfl

theorem openBlocks_snoc (turns : List Turn) (t : Turn) :
    openBlocks (turns ++ [t]) = t.depth (openBlocks turns) := by
  simp [openBlocks]

/-- A counter keeps one value for each open block. -/
theorem length_saved_turn (c : StepCounter) (t : Turn) :
    (c.turn t).saved.length = t.depth c.saved.length := by
  cases t with
  | draw => rfl
  | startParallel => rfl
  | endParallel =>
    show c.endParallel.2.saved.length = c.saved.length - 1
    unfold endParallel
    split
    case h_1 none_open => simp [none_open]
    case h_2 value one_open => simp [one_open]
    case h_3 value saved deeper => simp [deeper]

/-- A counter saves one value for each open block. -/
theorem length_saved_after (c : StepCounter) (turns : List Turn) :
    (c.after turns).saved.length = turns.foldl Turn.depth c.saved.length := by
  induction turns generalizing c with
  | nil => rfl
  | cons t rest ih => rw [after_cons, ih, length_saved_turn, List.foldl_cons]

/-- The open blocks of a counter that was fresh are those of its turns. -/
theorem length_saved (turns : List Turn) :
    (after {} turns).saved.length = openBlocks turns :=
  length_saved_after {} turns

/-! ### The highest number -/

/-- The counter agrees with the numbers that it has given. -/
structure Consistent (c : StepCounter) (given : List Nat) : Prop where
  value_le : c.value ≤ c.highest
  saved_le : ∀ n ∈ c.saved, n ≤ c.highest
  /-- Outside of all blocks the value is the highest number. -/
  level : c.saved = [] → c.value = c.highest
  given_le : ∀ n ∈ given, n ≤ c.highest
  highest_mem : c.highest ∈ 0 :: given
  /-- The numbers are no more than were drawn. -/
  highest_le : c.highest ≤ given.length

/-- A counter agrees with the number that it draws as well. -/
theorem Consistent.draw (consistent : c.Consistent given) :
    (c.turn .draw).Consistent (given ++ [c.value + 1]) := by
  have value_le := consistent.value_le
  have highest : (c.turn .draw).highest = max c.highest (c.value + 1) := rfl
  constructor
  · exact Nat.le_max_right _ _
  · intro n saved
    exact Nat.le_trans (consistent.saved_le n saved) (Nat.le_max_left _ _)
  · intro outside
    have level := consistent.level outside
    show c.value + 1 = max c.highest (c.value + 1)
    omega
  · intro n member
    rw [highest]
    rcases List.mem_append.mp member with earlier | last
    · have := consistent.given_le n earlier
      omega
    · obtain rfl := List.mem_singleton.mp last
      omega
  · rw [highest]
    rcases Nat.le_total (c.value + 1) c.highest with le | le
    · rw [Nat.max_eq_left le]
      exact List.mem_append_left [c.value + 1] consistent.highest_mem
    · rw [Nat.max_eq_right le]
      simp
  · have := consistent.highest_le
    rw [highest, List.length_append, List.length_singleton]
    omega

/-- A block that starts saves a value that is no more than the highest number. -/
theorem Consistent.startParallel (consistent : c.Consistent given) :
    (c.turn .startParallel).Consistent given where
  value_le := consistent.value_le
  saved_le := List.forall_mem_cons.mpr ⟨consistent.value_le, consistent.saved_le⟩
  level := by rintro ⟨⟩
  given_le := consistent.given_le
  highest_mem := consistent.highest_mem
  highest_le := consistent.highest_le

/-- Where a block ends, the value is one that was saved or, outside of all blocks, the highest
number. -/
theorem Consistent.endParallel (consistent : c.Consistent given) :
    (c.turn .endParallel).Consistent given := by
  have saved_le := consistent.saved_le
  show c.endParallel.2.Consistent given
  unfold StepCounter.endParallel
  split
  case h_1 => exact consistent
  case h_2 value one_open =>
    -- the outermost block closes, and the value is the highest number again
    have low : value ≤ c.highest := saved_le value (by simp [one_open])
    have level : max c.highest value = c.highest := Nat.max_eq_left low
    exact ⟨Nat.le_of_eq level, List.forall_mem_nil _, fun _ => level, consistent.given_le,
      consistent.highest_mem, consistent.highest_le⟩
  case h_3 value saved inside deeper =>
    rw [deeper] at saved_le
    obtain ⟨low, lower⟩ := List.forall_mem_cons.mp saved_le
    exact ⟨low, lower, fun none_open => absurd none_open inside, consistent.given_le,
      consistent.highest_mem, consistent.highest_le⟩

/-- A counter agrees with its numbers after each turn, by the kind of turn. -/
theorem Consistent.turn (consistent : c.Consistent given) (t : Turn) :
    (c.turn t).Consistent (given ++ c.drawn t) := by
  cases t with
  | draw => exact consistent.draw
  | startParallel =>
    rw [drawn, List.append_nil]
    exact consistent.startParallel
  | endParallel =>
    rw [drawn, List.append_nil]
    exact consistent.endParallel

/-- Whatever the turns are, the counter tells of the numbers it has given: by induction on the
turns. -/
theorem Consistent.after (consistent : c.Consistent given) (turns : List Turn) :
    (c.after turns).Consistent (given ++ c.numbers turns) := by
  induction turns generalizing c given with
  | nil =>
    rw [numbers, List.append_nil]
    exact consistent
  | cons t rest ih =>
    rw [numbers, ← List.append_assoc]
    exact ih (consistent.turn t)

/-- A counter that was fresh agrees with the numbers of its turns. -/
theorem consistent_after (turns : List Turn) :
    (after {} turns).Consistent (numbers {} turns) := by
  have fresh : ({} : StepCounter).Consistent [] :=
    ⟨Nat.le_refl 0, List.forall_mem_nil _, fun _ => rfl, List.forall_mem_nil _,
      List.mem_singleton_self 0, Nat.le_refl 0⟩
  exact fresh.after turns

/-! ### Passages -/

/-- Passages follow one another. -/
theorem Passage.append (first : Passage turns own) (later : Passage turns' own') :
    Passage (turns ++ turns') (own + own') := by
  induction first with
  | nil =>
    rw [List.nil_append, Nat.zero_add]
    exact later
  | draw _ ih =>
    rw [List.cons_append, Nat.add_right_comm]
    exact ih.draw
  | block body _ _ ih =>
    rw [List.append_assoc, List.cons_append]
    exact .block body ih

/-- Closing a block forgets the value saved for it, and inside of another block goes back to
it. -/
theorem turn_endParallel {value : Nat} {saved : List Nat} (opened : c.saved = value :: saved) :
    (c.turn .endParallel).saved = saved ∧
      (saved ≠ [] → (c.turn .endParallel).value = value) := by
  show c.endParallel.2.saved = saved ∧ (saved ≠ [] → c.endParallel.2.value = value)
  unfold StepCounter.endParallel
  rw [opened]
  cases saved with
  | nil => exact ⟨rfl, fun inside => absurd rfl inside⟩
  | cons => exact ⟨rfl, fun _ => rfl⟩

/-- A passage closes the blocks that it opens and no others, and inside of a block it moves
the value by the numbers that it draws outside of its own blocks. -/
theorem Passage.after (passage : Passage turns own) (c : StepCounter) :
    (c.after turns).saved = c.saved ∧
      (c.saved ≠ [] → (c.after turns).value = c.value + own) := by
  induction passage generalizing c with
  | nil => exact ⟨rfl, fun _ => rfl⟩
  | @draw rest own _ ih =>
    obtain ⟨saved, value⟩ := ih (c.turn .draw)
    refine ⟨saved, fun inside => ?_⟩
    calc (c.after (.draw :: rest)).value
        = (c.turn .draw).value + own := value inside
      _ = c.value + (own + 1) := by
          show c.value + 1 + own = c.value + (own + 1)
          omega
  | @block inner rest _ own _ _ bodyIH laterIH =>
    -- the block ends where it was opened, with the value saved for it on top
    let ended := (c.turn .startParallel).after inner
    have opened : ended.saved = c.value :: c.saved := (bodyIH (c.turn .startParallel)).1
    obtain ⟨kept, restored⟩ := turn_endParallel opened
    obtain ⟨saved, value⟩ := laterIH (ended.turn .endParallel)
    have split : c.after (.startParallel :: inner ++ .endParallel :: rest) =
        (ended.turn .endParallel).after rest := by
      rw [List.cons_append, after_cons, after_append, after_cons]
    rw [split]
    refine ⟨saved.trans kept, fun inside => ?_⟩
    rw [value (kept ▸ inside), restored inside]

/-- The innermost open block was opened by a turn with nothing but a passage after it. -/
theorem exists_opening (inside : 0 < openBlocks turns) :
    ∃ before inner own, turns = before ++ .startParallel :: inner ∧ Passage inner own ∧
      openBlocks before + 1 = openBlocks turns := by
  induction size : turns.length using Nat.strongRecOn generalizing turns with
  | _ size_eq ih =>
    subst size
    obtain rfl | ⟨earlier, t, rfl⟩ := turns.eq_nil_or_concat
    · cases inside
    rw [List.concat_eq_append] at inside ih ⊢
    rw [openBlocks_snoc] at inside ⊢
    have shorter : ∀ {turns : List Turn}, turns.length ≤ earlier.length →
        turns.length < (earlier ++ [t]).length := by
      intro turns le
      rw [List.length_append, List.length_singleton]
      omega
    cases t with
    | draw =>
      obtain ⟨before, inner, own, rfl, passage, depth⟩ :=
        ih _ (shorter (Nat.le_refl _)) inside rfl
      exact ⟨before, inner ++ [.draw], own + 1, by simp, passage.append (.draw .nil), depth⟩
    | startParallel => exact ⟨earlier, [], 0, rfl, .nil, rfl⟩
    | endParallel =>
      -- the block that the turn closes lies inside of the one that is looked for
      have inside : 0 < openBlocks earlier - 1 := inside
      obtain ⟨around, closed, own', rfl, passage', depth'⟩ :=
        ih _ (shorter (Nat.le_refl _)) (by omega) rfl
      have shorter' : around.length ≤ (around ++ .startParallel :: closed).length := by simp
      obtain ⟨before, inner, own, rfl, passage, depth⟩ :=
        ih _ (shorter shorter') (by omega) rfl
      refine ⟨before, inner ++ (.startParallel :: closed ++ .endParallel :: []), own + 0,
        by simp, passage.append (.block passage' .nil), ?_⟩
      show openBlocks before + 1 = openBlocks (before ++ .startParallel :: inner ++
        .startParallel :: closed) - 1
      omega

/-! ### Numbers and blocks -/

theorem length_numbers (c : StepCounter) (turns : List Turn) :
    (c.numbers turns).length = turns.count .draw := by
  induction turns generalizing c with
  | nil => rfl
  | cons t rest ih =>
    rw [numbers, List.length_append, ih, List.count_cons, Nat.add_comm]
    cases t <;> rfl

/-- How the numbers of a fresh counter follow the blocks of its turns. -/
structure FollowsBlocks (turns : List Turn) : Prop where
  /-- The value is at most the highest number, and that is at most the count of numbers. -/
  bounded : ∃ highest ∈ 0 :: numbers {} turns, (∀ n ∈ numbers {} turns, n ≤ highest) ∧
    (after {} turns).value ≤ highest ∧ highest ≤ turns.count .draw
  /-- Outside of all blocks, a number is higher than all before it. -/
  outside : openBlocks turns = 0 → ∀ n ∈ numbers {} turns, n < (after {} turns).next.1
  /-- Where no block is open, none is closed and nothing changes. -/
  nothing_open : openBlocks turns = 0 → (after {} turns).endParallel = (false, after {} turns)
  /-- Where a block is open, one can be closed: all turns since it was opened are a passage. -/
  opened : 0 < openBlocks turns → (after {} turns).endParallel.1 = true ∧
    ∃ before inner own, turns = before ++ .startParallel :: inner ∧ Passage inner own ∧
      openBlocks before + 1 = openBlocks turns
  /-- Inside of a block, a number and the next one of the same block are consecutive, whatever
  blocks stand between them. -/
  consecutive : 0 < openBlocks turns → ∀ between, Passage between 0 →
    (after {} (turns ++ .draw :: between)).next.1 = (after {} turns).next.1 + 1
  /-- A block inside of another one, once it is closed, has changed neither the value nor the
  number that comes next. -/
  restored : 0 < openBlocks turns → ∀ inner own, Passage inner own →
    let closed := after {} (turns ++ (.startParallel :: inner ++ [.endParallel]))
    closed.value = (after {} turns).value ∧ closed.saved = (after {} turns).saved ∧
      closed.next.1 = (after {} turns).next.1

/-- Inside of a block, the next number is the value counted on. -/
theorem Passage.next_after (passage : Passage turns own) (inside : c.saved ≠ []) :
    (c.after turns).next.1 = c.next.1 + own := by
  have value := (passage.after c).2 inside
  show (c.after turns).value + 1 = c.value + 1 + own
  omega

/-- The numbers that a counter gives follow the blocks, however these are nested. -/
theorem followsBlocks (turns : List Turn) : FollowsBlocks turns := by
  have consistent := consistent_after turns
  have depth := length_saved turns
  have inside_of : 0 < openBlocks turns → (after {} turns).saved ≠ [] := by
    intro inside none_open
    rw [none_open, List.length_nil] at depth
    omega
  have outside_of : openBlocks turns = 0 → (after {} turns).saved = [] := fun outside =>
    List.length_eq_zero_iff.mp (depth.trans outside)
  constructor
  · refine ⟨_, consistent.highest_mem, consistent.given_le, consistent.value_le, ?_⟩
    rw [← length_numbers {}]
    exact consistent.highest_le
  · intro outside n member
    have level := consistent.level (outside_of outside)
    have := consistent.given_le n member
    show n < (after {} turns).value + 1
    omega
  · intro outside
    unfold StepCounter.endParallel
    rw [outside_of outside]
  · intro inside
    refine ⟨?_, exists_opening inside⟩
    unfold StepCounter.endParallel
    split
    case h_1 none_open => exact absurd none_open (inside_of inside)
    case h_2 => rfl
    case h_3 => rfl
  · intro inside between passage
    rw [after_append]
    exact passage.draw.next_after (inside_of inside)
  · intro inside inner own passage
    have block : Passage (.startParallel :: inner ++ [.endParallel]) 0 := .block passage .nil
    obtain ⟨saved, value⟩ := block.after (after {} turns)
    rw [after_append]
    exact ⟨value (inside_of inside), saved, block.next_after (inside_of inside)⟩

end Edifice.StepCounter
