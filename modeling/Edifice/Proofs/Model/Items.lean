import Edifice.Model.Basic
import Edifice.Proofs.Ordered
import Edifice.Proofs.Text
import Mathlib.Data.List.Nodup

/-!
What items carry.

Tags reach an item as a list separated by commas.  What the list holds are tags proper
(`IsTag`), and a tag that an item carries already is not added again; so adding lists one after
the other comes to adding them as one, and adding a list twice to adding it once.  An item is
made of the tags it starts with by changes that are checked (`Item.Made`), and whatever is made
that way is in normal form (`Item.Normal`).
-/

namespace Edifice

/-! ### Tags -/

/-- A tag as it is kept: some text without commas and without blanks around it. -/
structure IsTag (t : String) : Prop where
  some_text : t ≠ ""
  single : ',' ∉ t.toList
  trimmed : Text.Trimmed t

/-- Lists of tags that are joined hold the tags of both. -/
theorem tagList_append (a b : String) : tagList (a ++ "," ++ b) = tagList a ++ tagList b := by
  rw [tagList, show "," = String.singleton ',' from rfl, Text.pieces_append, List.map_append,
    List.filter_append]
  rfl

/-- Tags are cut out at commas, and trimmed: what is left is a tag if it is not empty. -/
theorem isTag_of_mem_tagList {t text : String} (listed : t ∈ tagList text) : IsTag t := by
  obtain ⟨trimmed, some_text⟩ := List.mem_filter.mp listed
  obtain ⟨piece, cut, rfl⟩ := List.mem_map.mp trimmed
  exact ⟨by simpa using some_text,
    fun comma => Text.not_mem_of_mem_pieces cut (Text.mem_of_mem_trim comma),
    Text.trimmed_trim piece⟩

/-- The tags that elements of a kind start with are tags proper, each listed once. -/
theorem ElementKind.defaultTags_proper (kind : ElementKind) :
    kind.defaultTags.Nodup ∧ ∀ t ∈ kind.defaultTags, IsTag t := by
  have read : ∀ t ∈ kind.defaultTags, tagList t = [t] := by
    cases kind <;> decide +kernel
  refine ⟨by cases kind <;> decide, fun t listed => ?_⟩
  have alone : t ∈ tagList t := read t listed ▸ List.mem_singleton_self t
  exact isTag_of_mem_tagList alone

theorem isTag_relationshipTag : IsTag relationshipTag := by
  have read : tagList relationshipTag = [relationshipTag] := by decide +kernel
  have alone : relationshipTag ∈ tagList relationshipTag :=
    read ▸ List.mem_singleton_self relationshipTag
  exact isTag_of_mem_tagList alone

/-! ### Properties -/

/-- An insertion brings in nothing but its own entry. -/
theorem Dictionary.mem_of_mem_insertEntry {α : Type} {name : String} {value : α}
    {entry : String × α} {l : List (String × α)} (member : entry ∈ insertEntry name value l) :
    entry = (name, value) ∨ entry ∈ l := by
  rw [insertEntry_eq] at member
  exact mem_of_mem_putKeyed member

theorem checkProperty_eq_ok {name value : String} :
    checkProperty name value = .ok () ↔ name ≠ "" ∧ value ≠ "" := by
  simp [checkProperty]

namespace Item

variable {item : Item} {first l : List String} {t text : String}

theorem tags_addTag (item : Item) (t : String) :
    (item.addTag t).tags = if t ∈ item.tags then item.tags else item.tags ++ [t] := by
  simp [addTag, insertLast]

theorem addTag_of_mem (carried : t ∈ item.tags) : item.addTag t = item := by
  simp [addTag, insertLast, carried]

/-- Tags that an item carries already are not added again. -/
theorem foldl_addTag_of_subset (carried : ∀ t ∈ l, t ∈ item.tags) : l.foldl addTag item = item := by
  induction l with
  | nil => rfl
  | cons t rest ih =>
    obtain ⟨here, others⟩ := List.forall_mem_cons.mp carried
    rw [List.foldl_cons, addTag_of_mem here, ih others]

/-- Tags that are added one after the other are all there, with those from before. -/
theorem mem_tags_foldl : t ∈ (l.foldl addTag item).tags ↔ t ∈ item.tags ∨ t ∈ l := by
  induction l generalizing item with
  | nil => simp
  | cons s rest ih =>
    have added : t ∈ (item.addTag s).tags ↔ t ∈ item.tags ∨ t = s := by
      rw [tags_addTag]
      by_cases carried : s ∈ item.tags
      · simp only [carried, if_true, iff_self_or]
        rintro rfl
        exact carried
      · simp [carried]
    rw [List.foldl_cons, ih, added, List.mem_cons, or_assoc]

/-- Adding tags and then others is adding one list of both. -/
theorem addTags_addTags (item : Item) (a b : String) :
    (item.addTags a).addTags b = item.addTags (a ++ "," ++ b) := by
  simp only [addTags, tagList_append, List.foldl_append]

/-- Adding tags again changes nothing. -/
theorem addTags_self (item : Item) (a : String) : (item.addTags a).addTags a = item.addTags a :=
  foldl_addTag_of_subset fun _ listed => mem_tags_foldl.mpr (.inr listed)

theorem hasTag_iff : item.hasTag t = true ↔ Text.trim t ∈ item.tags :=
  List.contains_iff_mem

/-! ### Normal form -/

/-- The tags, perspectives, properties and the link of an item that starts with some tags are
kept in normal form. -/
structure Normal (item : Item) (first : List String) : Prop where
  tags_distinct : item.tags.Nodup
  tags_proper : ∀ t ∈ item.tags, IsTag t
  tags_start : first <+: item.tags
  perspectives_ascend : item.perspectives.Pairwise fun p q => p.name < q.name
  perspectives_filled : ∀ p ∈ item.perspectives, p.name ≠ "" ∧ p.description ≠ ""
  properties_distinct : item.properties.names.Nodup
  properties_filled : ∀ entry ∈ item.properties.entries, entry.1 ≠ "" ∧ entry.2 ≠ ""
  url_valid : ∀ url, item.url = some url → Url.isValid url = true

/-- How items come to be: with the tags they start with at first, then changed one by one. -/
inductive Made (first : List String) : Item → Prop where
  | plain : Made first { tags := first }
  | tagged {item : Item} (made : Made first item) (text : String) : Made first (item.addTags text)
  | linked {item : Item} {url : String} {link : Option String} (made : Made first item)
      (read : readUrl url = .ok link) : Made first { item with url := link }
  | property {item : Item} {name value : String} (made : Made first item)
      (checked : checkProperty name value = .ok ()) :
      Made first { item with properties := item.properties.insert name value }
  | perspective {item : Item} {p : Perspective} (made : Made first item)
      (checked : item.checkPerspective p = .ok ()) :
      Made first
        { item with perspectives := insertSorted Perspective.below p item.perspectives }

/-- A tag that is added goes to the end unless it is there, so that the first one stays the
first. -/
theorem Normal.addTag (normal : item.Normal first) (proper : IsTag t) :
    (item.addTag t).Normal first := by
  by_cases carried : t ∈ item.tags
  · rwa [addTag_of_mem carried]
  have tags : (item.addTag t).tags = item.tags ++ [t] := by rw [tags_addTag, if_neg carried]
  exact
    { normal with
      tags_distinct := by
        rw [tags, ← List.concat_eq_append]
        exact normal.tags_distinct.concat carried
      tags_proper := by
        rw [tags, List.forall_mem_append, List.forall_mem_singleton]
        exact ⟨normal.tags_proper, proper⟩
      tags_start := by
        rw [tags]
        exact normal.tags_start.trans (List.prefix_append _ _) }

/-- A list of tags is added tag by tag. -/
theorem Normal.addTags (normal : item.Normal first) (text : String) :
    (item.addTags text).Normal first := by
  have kept : ∀ l : List String, (∀ t ∈ l, IsTag t) → (l.foldl Item.addTag item).Normal first := by
    intro l proper
    induction l generalizing item with
    | nil => exact normal
    | cons t rest ih =>
      obtain ⟨here, others⟩ := List.forall_mem_cons.mp proper
      exact ih (normal.addTag here) others
  exact kept _ fun _ listed => isTag_of_mem_tagList listed

/-- A link is accepted only with a valid address. -/
theorem readUrl_eq_ok {url : String} {link : Option String} (read : readUrl url = .ok link) :
    ∀ url, link = some url → Url.isValid url = true := by
  unfold readUrl at read
  split at read
  · obtain rfl := Except.ok.inj read
    exact nofun
  · split at read
    case isTrue valid =>
      obtain rfl := Except.ok.inj read
      rintro _ ⟨⟩
      exact valid
    case isFalse => cases read

theorem checkPerspective_eq_ok {p : Perspective} :
    item.checkPerspective p = .ok () ↔
      p.name ≠ "" ∧ p.description ≠ "" ∧ ∀ q ∈ item.perspectives, q.name ≠ p.name := by
  simp [checkPerspective]

/-- What is made of proper tags is in normal form. -/
theorem Made.normal (made : item.Made first) (distinct : first.Nodup)
    (proper : ∀ t ∈ first, IsTag t) : item.Normal first := by
  induction made with
  | plain =>
    exact ⟨distinct, proper, List.prefix_refl _, .nil, List.forall_mem_nil _, .nil,
      List.forall_mem_nil _, nofun⟩
  | tagged _ text normal => exact normal.addTags text
  | linked _ read normal => exact { normal with url_valid := readUrl_eq_ok read }
  | @property item name value _ checked normal =>
    refine { normal with properties_distinct := ?_, properties_filled := fun entry listed => ?_ }
    · rw [Dictionary.names_insert]
      split
      case isTrue => exact normal.properties_distinct
      case isFalse new =>
        rw [← List.concat_eq_append]
        exact normal.properties_distinct.concat new
    · rcases Dictionary.mem_of_mem_insertEntry listed with rfl | earlier
      · exact checkProperty_eq_ok.mp checked
      · exact normal.properties_filled entry earlier
  | @perspective item p _ checked normal =>
    obtain ⟨named, described, -⟩ := checkPerspective_eq_ok.mp checked
    refine { normal with perspectives_ascend := ?_, perspectives_filled := fun q listed => ?_ }
    · exact pairwise_insertSorted (fun _ _ => decide_eq_true_iff) normal.perspectives_ascend
    · rcases mem_of_mem_insertSorted listed with rfl | earlier
      · exact ⟨named, described⟩
      · exact normal.perspectives_filled q earlier

end Item

end Edifice
