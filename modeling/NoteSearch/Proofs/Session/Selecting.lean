import Mathlib.Data.List.Nodup
import Mathlib.Logic.Relation
import NoteSearch.Proofs.Session.Current

/-!
# A selection is an ordered set of filters

No filter comes twice in a selection, whatever is done to it. Adding, removing and turning round
filters do to the list what they would do to the set, and leave the order of the other filters
alone. A change that cannot be made leaves the whole session as it is.
-/
namespace NoteSearch
open Search

theorem Filter.toggled_ne (f : Filter) : f.toggled ≠ f := by
  intro heq
  have hreversed : (!f.reversed) = f.reversed := congrArg Filter.reversed heq
  simp at hreversed

namespace Selection

/-! ## Changes of a selection -/

/-- What can be done to a selection. -/
inductive Change where
  | add (f : Filter)
  | remove (index : Nat)
  | removeLast
  | setFilters (filters : List Filter)
  | reverse (f : Filter)
  | setSort (sort : Option SortChoice)
  | toggleSort
  | clearSort
  | withSuggestions (suggestions : List Filter)

/-- The parts of a selection. -/
inductive Part where
  | filters
  | sort
  | suggestions
  deriving DecidableEq

namespace Change

/-- The part that a change is about. -/
def part : Change → Part
  | add _ | remove _ | removeLast | setFilters _ | reverse _ => .filters
  | setSort _ | toggleSort | clearSort => .sort
  | withSuggestions _ => .suggestions

end Change

/-- The selection after a change, if it can be made. -/
def changed (s : Selection) : Change → Except OutOfRange Selection
  | .add f => .ok (s.add f)
  | .remove index => s.remove index
  | .removeLast => .ok s.removeLast
  | .setFilters filters => .ok (s.setFilters filters)
  | .reverse f => .ok (s.reverse f)
  | .setSort sort => .ok (s.setSort sort)
  | .toggleSort => .ok s.toggleSort
  | .clearSort => .ok s.clearSort
  | .withSuggestions suggestions => .ok (s.withSuggestions suggestions)

/-- One change leads from the one selection to the other. -/
def Turns (s t : Selection) : Prop := ∃ change, s.changed change = .ok t

/-- Some changes of the empty selection lead to this one. -/
def IsReached (s : Selection) : Prop := Relation.ReflTransGen Turns {} s

variable {s t : Selection} {f : Filter} {before after : List Filter}

/-! ## What each change makes of the filters -/

theorem add_eq (s : Selection) (f : Filter) :
    s.add f =
      { s with filters := if f ∈ s.filters then s.filters else s.filters ++ [f] } := by
  unfold add
  split <;> rfl

/-- The only filter that goes is the one at the index. -/
theorem remove_eq (s : Selection) (index : Nat) :
    s.remove index =
      if index < s.filters.length then
        .ok { s with filters := s.filters.take index ++ s.filters.drop (index + 1) }
      else .error ⟨index, s.filters.length⟩ := by
  rw [remove, List.eraseIdx_eq_take_drop_succ]

/-- Filters that are added one by one come behind those that are there, each once. -/
theorem foldl_add (filters : List Filter) (s : Selection) :
    filters.foldl add s =
      { s with filters := s.filters ++ (filters.filter (· ∉ s.filters)).eraseDups } := by
  induction filters generalizing s with
  | nil => simp
  | cons f filters ih =>
    rw [List.foldl_cons, ih, add_eq]
    by_cases hf : f ∈ s.filters
    · simp [hf]
    · -- what comes behind the new filter is neither there already nor equal to it
      have hrest : filters.filter (· ∉ s.filters ++ [f]) =
          (filters.filter (· ∉ s.filters)).filter (!· == f) := by
        rw [List.filter_filter]
        refine List.filter_congr fun g _ => ?_
        by_cases hg : g = f <;> simp [hg]
      simp only [if_neg hf, hrest]
      rw [List.filter_cons_of_pos (by simpa using hf), List.eraseDups_cons, List.append_assoc]
      rfl

theorem setFilters_eq (s : Selection) (filters : List Filter) :
    s.setFilters filters = { s with filters := filters.eraseDups } := by
  rw [setFilters, foldl_add]
  simp

theorem reverse_of_notMem (h : f ∉ s.filters) : s.reverse f = s := by
  have hnone : s.filters.findIdx? (· == f) = none :=
    List.findIdx?_eq_none_iff.2 fun g hg => beq_eq_false_iff_ne.2 fun heq => h (heq ▸ hg)
  rw [reverse, hnone]

/-- Where the first filter equal to `f` was, its reverse is now, or nothing if that was there. -/
theorem reverse_eq (h : s.filters = before ++ f :: after) (hfirst : f ∉ before) :
    s.reverse f =
      { s with filters :=
          if f.toggled ∈ s.filters then before ++ after else before ++ f.toggled :: after } := by
  have hindex : s.filters.findIdx? (· == f) = some before.length := by
    have hnone : before.findIdx? (· == f) = none :=
      List.findIdx?_eq_none_iff.2 fun g hg => beq_eq_false_iff_ne.2 fun heq => hfirst (heq ▸ hg)
    rw [h, List.findIdx?_append, hnone]
    simp [List.findIdx?_cons]
  have herase : s.filters.eraseIdx before.length = before ++ after := by
    rw [h, List.eraseIdx_append_of_length_le (Nat.le_refl _), Nat.sub_self]
    rfl
  have hset : s.filters.set before.length f.toggled = before ++ f.toggled :: after := by
    rw [h, List.set_append_right _ _ (Nat.le_refl _), Nat.sub_self]
    rfl
  rw [reverse, hindex]
  dsimp only
  rw [herase, hset]
  split <;> rfl

/-! ## No filter comes twice -/

theorem nodup_add (h : s.filters.Nodup) (f : Filter) : (s.add f).filters.Nodup := by
  rw [add_eq]
  by_cases hf : f ∈ s.filters
  · simpa [hf] using h
  · simpa [hf, List.nodup_append] using ⟨h, fun g hg heq => hf (heq ▸ hg)⟩

theorem nodup_setFilters (s : Selection) (filters : List Filter) :
    (s.setFilters filters).filters.Nodup := by
  have hfold : ∀ (filters : List Filter) (s : Selection), s.filters.Nodup →
      (filters.foldl add s).filters.Nodup := by
    intro filters
    induction filters with
    | nil => exact fun s h => h
    | cons f filters ih => exact fun s h => ih _ (nodup_add h f)
  exact hfold filters _ List.nodup_nil

/-- Where no filter comes twice, each stands at one place. -/
theorem exists_split (h : s.filters.Nodup) (hf : f ∈ s.filters) :
    ∃ before after, s.filters = before ++ f :: after ∧ f ∉ before ∧ f ∉ after := by
  obtain ⟨before, after, hsplit⟩ := List.append_of_mem hf
  have hother : f ∉ before ++ after := (List.nodup_middle.1 (hsplit ▸ h)).notMem
  rw [List.mem_append, not_or] at hother
  exact ⟨before, after, hsplit, hother⟩

theorem nodup_reverse (h : s.filters.Nodup) (f : Filter) : (s.reverse f).filters.Nodup := by
  by_cases hf : f ∈ s.filters
  · obtain ⟨before, after, hsplit, hfirst, -⟩ := exists_split h hf
    have hothers : (before ++ after).Nodup := (List.nodup_middle.1 (hsplit ▸ h)).of_cons
    rw [reverse_eq hsplit hfirst]
    by_cases htoggled : f.toggled ∈ s.filters
    · simpa only [if_pos htoggled] using hothers
    · simp only [if_neg htoggled]
      refine List.nodup_middle.2 (List.nodup_cons.2 ⟨fun hmem => htoggled ?_, hothers⟩)
      rw [hsplit]
      exact List.perm_middle.mem_iff.2 (List.mem_cons_of_mem f hmem)
  · rwa [reverse_of_notMem hf]

/-- A change that can be made leaves the filters different. -/
theorem nodup_changed {change : Change} (h : s.filters.Nodup) (hchange : s.changed change = .ok t) :
    t.filters.Nodup := by
  cases change with
  | remove index =>
    rw [changed, remove] at hchange
    split at hchange
    · cases hchange
      exact h.eraseIdx index
    · cases hchange
  | add f => cases hchange; exact nodup_add h f
  | removeLast => cases hchange; exact h.sublist (List.dropLast_sublist _)
  | setFilters filters => cases hchange; exact nodup_setFilters s filters
  | reverse f => cases hchange; exact nodup_reverse h f
  | setSort _ | toggleSort | clearSort | withSuggestions _ => cases hchange; exact h

theorem IsReached.nodup (h : s.IsReached) : s.filters.Nodup := by
  induction h with
  | refl => exact List.nodup_nil
  | tail _ hturns ih =>
    obtain ⟨change, hchange⟩ := hturns
    exact nodup_changed ih hchange

/-! ## What a change is not about -/

/-- The two selections differ at most in one part. -/
structure Spares (part : Part) (s t : Selection) : Prop where
  filters : part ≠ .filters → t.filters = s.filters
  sort : part ≠ .sort → t.sort = s.sort
  suggestions : part ≠ .suggestions → t.suggestions = s.suggestions

theorem spares_reverse (s : Selection) (f : Filter) : Spares .filters s (s.reverse f) := by
  unfold reverse
  split
  · exact ⟨fun _ => rfl, fun _ => rfl, fun _ => rfl⟩
  · split <;> exact ⟨fun h => absurd rfl h, fun _ => rfl, fun _ => rfl⟩

theorem spares_changed {change : Change} (hchange : s.changed change = .ok t) :
    Spares change.part s t := by
  cases change with
  | remove index =>
    rw [changed, remove] at hchange
    split at hchange
    · cases hchange
      exact ⟨fun h => absurd rfl h, fun _ => rfl, fun _ => rfl⟩
    · cases hchange
  | add f =>
    cases hchange
    rw [add_eq]
    exact ⟨fun h => absurd rfl h, fun _ => rfl, fun _ => rfl⟩
  | removeLast => cases hchange; exact ⟨fun h => absurd rfl h, fun _ => rfl, fun _ => rfl⟩
  | setFilters filters =>
    cases hchange
    rw [setFilters_eq]
    exact ⟨fun h => absurd rfl h, fun _ => rfl, fun _ => rfl⟩
  | reverse f => cases hchange; exact spares_reverse s f
  | setSort _ | toggleSort | clearSort =>
    cases hchange
    exact ⟨fun _ => rfl, fun h => absurd rfl h, fun _ => rfl⟩
  | withSuggestions _ => cases hchange; exact ⟨fun _ => rfl, fun _ => rfl, fun h => absurd rfl h⟩

/-! ## Turning filters round -/

/-- What is in the selection after a filter has been turned round. -/
theorem mem_reverse_iff (h : s.filters.Nodup) (f g : Filter) :
    g ∈ (s.reverse f).filters ↔
      if f ∈ s.filters then g ∈ s.filters ∧ g ≠ f ∨ g = f.toggled else g ∈ s.filters := by
  by_cases hf : f ∈ s.filters
  · obtain ⟨before, after, hsplit, hbefore, hafter⟩ := exists_split h hf
    have hothers : g ∈ before ++ after ↔ g ∈ s.filters ∧ g ≠ f := by
      rw [hsplit, List.perm_middle.mem_iff, List.mem_cons]
      constructor
      · intro hg
        refine ⟨.inr hg, ?_⟩
        rintro rfl
        exact (List.mem_append.1 hg).elim hbefore hafter
      · exact fun hg => hg.1.resolve_left hg.2
    rw [if_pos hf, reverse_eq hsplit hbefore, ← hothers]
    by_cases htoggled : f.toggled ∈ s.filters
    · have hthere : g = f.toggled → g ∈ before ++ after := by
        rintro rfl
        exact hothers.2 ⟨htoggled, f.toggled_ne⟩
      simpa only [if_pos htoggled] using (or_iff_left_of_imp hthere).symm
    · simp only [if_neg htoggled]
      rw [List.perm_middle.mem_iff, List.mem_cons, or_comm]
  · rw [if_neg hf, reverse_of_notMem hf]

/-- Once a filter has been turned round, its reverse stands in its place; so turning that round
brings back what there was. -/
theorem reverse_reverse (h : s.filters.Nodup) (hf : f ∈ s.filters)
    (htoggled : f.toggled ∉ s.filters) : (s.reverse f).reverse f.toggled = s := by
  obtain ⟨before, after, hsplit, hbefore, hafter⟩ := exists_split h hf
  have honce : (s.reverse f).filters = before ++ f.toggled :: after := by
    rw [reverse_eq hsplit hbefore]
    exact if_neg htoggled
  have hnew : f.toggled ∉ before := fun hmem => htoggled (hsplit ▸ List.mem_append_left _ hmem)
  have hgone : f ∉ (s.reverse f).filters := by
    rw [mem_reverse_iff h, if_pos hf, not_or]
    exact ⟨fun hstays => hstays.2 rfl, f.toggled_ne.symm⟩
  rw [reverse_eq honce hnew, Filter.toggled_toggled, if_neg hgone, ← hsplit,
    reverse_eq hsplit hbefore]

/-! ## Sessions -/

theorem act_removeFilter_of_le {session : Session} {index : Nat}
    (h : session.selection.filters.length ≤ index) :
    session.removeFilter index =
        .error (.outOfRange ⟨index, session.selection.filters.length⟩) ∧
      session.act (.removeFilter index) = session := by
  have hfails : session.removeFilter index =
      .error (.outOfRange ⟨index, session.selection.filters.length⟩) := by
    rw [Session.removeFilter, remove, if_neg (Nat.not_lt.2 h)]
  refine ⟨hfails, ?_⟩
  rw [Session.act, hfails]
  rfl

/-- The filters of a selection are an ordered set: no filter comes twice in a selection that is
reached from the empty one, nor after any change of a selection in which none does. A change leaves
alone what it is not about. A filter is added at the end unless it is there; the one at an
index is removed, or if there is none, the fault says so and the session stays as it is; of filters
that are set, whatever was there, the first of equal ones stay in order. Turning a filter round puts
its reverse in its place, which can be undone in the same way, or leaves the place out if the
reverse stands elsewhere; without the filter nothing changes. -/
theorem ordered_set_of_filters (s : Selection) (hdistinct : s.filters.Nodup) :
    (∀ change t, s.changed change = .ok t → t.filters.Nodup ∧ Spares change.part s t) ∧
    (∀ t : Selection, t.IsReached → t.filters.Nodup) ∧
    (∀ f, (s.add f).filters = if f ∈ s.filters then s.filters else s.filters ++ [f]) ∧
    (∀ index, s.remove index =
      if index < s.filters.length then
        .ok { s with filters := s.filters.take index ++ s.filters.drop (index + 1) }
      else .error ⟨index, s.filters.length⟩) ∧
    (∀ (session : Session) (index : Nat), session.selection.filters.length ≤ index →
      session.removeFilter index =
          .error (.outOfRange ⟨index, session.selection.filters.length⟩) ∧
        session.act (.removeFilter index) = session) ∧
    (∀ (t : Selection) (filters : List Filter),
      (t.setFilters filters).filters = filters.eraseDups) ∧
    (∀ f, f ∉ s.filters → s.reverse f = s) ∧
    (∀ f before after, s.filters = before ++ f :: after →
      (f.toggled ∈ s.filters → (s.reverse f).filters = before ++ after) ∧
      (f.toggled ∉ s.filters → (s.reverse f).filters = before ++ f.toggled :: after ∧
        (s.reverse f).reverse f.toggled = s)) ∧
    (∀ f g, g ∈ (s.reverse f).filters ↔
      if f ∈ s.filters then g ∈ s.filters ∧ g ≠ f ∨ g = f.toggled else g ∈ s.filters) := by
  refine ⟨fun change t hchange => ⟨nodup_changed hdistinct hchange, spares_changed hchange⟩,
    fun t ht => ht.nodup, fun f => by rw [add_eq], remove_eq s,
    fun session index h => act_removeFilter_of_le h, fun t filters => by rw [setFilters_eq],
    fun f hf => reverse_of_notMem hf, fun f before after hsplit => ?_, mem_reverse_iff hdistinct⟩
  have hmem : f ∈ s.filters := hsplit ▸ List.mem_append_right before List.mem_cons_self
  have hother : f ∉ before ++ after := (List.nodup_middle.1 (hsplit ▸ hdistinct)).notMem
  have hfirst : f ∉ before := fun hbefore => hother (List.mem_append_left after hbefore)
  rw [reverse_eq hsplit hfirst]
  refine ⟨fun htoggled => if_pos htoggled, fun htoggled => ⟨if_neg htoggled, ?_⟩⟩
  rw [← reverse_eq hsplit hfirst]
  exact reverse_reverse hdistinct hmem htoggled

/-- A tag is turned round beside its own reverse, and a folder alone. -/
theorem ordered_set_of_three_filters :
    let tag : Filter := ⟨.tag, "#a", false⟩
    let folder : Filter := ⟨.folder, "notes", false⟩
    let s : Selection := { filters := [tag, folder, tag.toggled] }
    s.filters.Nodup ∧ (s.reverse tag).filters = [folder, tag.toggled] ∧
      (s.reverse folder).filters = [tag, folder.toggled, tag.toggled] ∧
      (s.reverse folder).reverse folder.toggled = s := by
  intro tag folder s
  have hdistinct : s.filters.Nodup := by decide
  obtain ⟨-, -, -, -, -, -, -, hreverse, -⟩ := ordered_set_of_filters s hdistinct
  obtain ⟨hcollapsed, -⟩ := hreverse tag [] [folder, tag.toggled] rfl
  obtain ⟨-, hturned⟩ := hreverse folder [tag] [tag.toggled] rfl
  exact ⟨hdistinct, hcollapsed (by decide), hturned (by decide)⟩

end Selection
end NoteSearch
