import NoteSearch.Program.Basic
import NoteSearch.Proofs.Session.Paging
import NoteSearch.Proofs.Vault.Scanning

/-!
# The pages that a search prints

A search opens a vault, finds the hits of its selection, takes as many steps through their pages as
it is asked for and prints what is shown then.
-/
namespace NoteSearch.Program
open Search CommandLine

/-- The session that a search leaves, before its pages are shown. -/
def searched (here : Surroundings) (i : Invocation) (filters : List Filter)
    (sort : Option SortChoice) : Except Failure Session := do
  let (w, s) ← openVault here i.vault
  found w ((withFilters w s filters).setSort sort)

/-- What is printed of a page out of `total` hits that were found for a selection. -/
def pageText (zone : Time.Zone) (styled quiet json : Bool) (selection : Selection)
    (page : List Hit) (total : Nat) : List String :=
  if json then [Display.listing page]
  else if quiet then page.map (·.path)
  else
    selection.filters.map (Display.filterLine styled)
      ++ page.map (Display.hitLine zone styled false)
      ++ [Display.footer page.length total selection.sort]

variable {here : Surroundings} {i : Invocation} {filters : List Filter} {sort : Option SortKey}
  {reverse all json : Bool} {pages : Nat}

/-! ## What is printed -/

/-- What cannot be done prints nothing. -/
theorem of_lift_bind {α : Type} (e : Except Failure α) (print : α → Printing Unit) :
    Result.of (liftM e >>= print) =
      match e with
      | .ok a => .of (print a)
      | .error failure => { failure := some failure } := by
  cases e <;> rfl

theorem perform_search (htask : i.task = .search filters sort reverse pages all json) :
    perform here i =
      liftM (searched here i filters (SortChoice.requested sort reverse here.settings.sort)) >>=
        fun s =>
          let shown := showPages s (if all then none else some pages)
          if json then print (Display.listing shown.window)
          else
            printAll
              (pageLines here.zone here.styled (i.quiet || here.settings.quiet) shown) := by
  unfold perform searched
  rw [htask]
  dsimp only
  cases openVault here i.vault <;> rfl

theorem pageLines_eq (zone : Time.Zone) (styled quiet : Bool) (s : Session) :
    pageLines zone styled quiet s =
      pageText zone styled quiet false s.selection s.window s.hits.length := by
  cases quiet <;> rfl

/-- A search prints what is shown of the hits once it is done, and nothing if it fails. -/
theorem result_search (htask : i.task = .search filters sort reverse pages all json) :
    Result.of (perform here i) =
      match searched here i filters (SortChoice.requested sort reverse here.settings.sort) with
      | .ok s =>
        let shown := showPages s (if all then none else some pages)
        { lines := pageText here.zone here.styled (i.quiet || here.settings.quiet) json
            shown.selection shown.window shown.hits.length }
      | .error failure => { failure := some failure } := by
  rw [perform_search htask, of_lift_bind]
  generalize searched here i filters (SortChoice.requested sort reverse here.settings.sort) = e
  cases e with
  | error failure => rfl
  | ok s =>
    cases json with
    | true => rfl
    | false =>
      dsimp only
      rw [← pageLines_eq]
      rfl

/-! ## How much is printed -/

theorem fresh_openVault {named : Option String} {w : Workspace} {s : Session}
    (h : openVault here named = .ok (w, s)) : s.IsFresh here.settings.batch := by
  unfold openVault at h
  cases hroot : rootFor here named with
  | error failure =>
    rw [hroot] at h
    cases h
  | ok root =>
    rw [hroot] at h
    dsimp only [bind, Except.bind] at h
    split at h
    · cases h
    · cases h
      exact Session.fresh_withSettings _ here.settings

/-- A search leaves the session that its tick leaves, or, if that were closed, the one before. -/
theorem fresh_found {w : Workspace} {s t : Session} {batch : Nat} (hs : s.IsFresh batch)
    (h : found w s = .ok t) : t.IsFresh batch := by
  obtain ⟨course, after, htick⟩ : ∃ course after, w.tick 0 s =
      ((s.tick w.store.suggestions w.backend course).1,
        Workspace.setSession after 0 (some (s.tick w.store.suggestions w.backend course).2)) :=
    ⟨_, _, rfl⟩
  have hafter := hs.tick w.store.suggestions w.backend course
  unfold found at h
  rw [htick] at h
  split at h
  · cases h
  · next outcome w' heq =>
    cases h
    obtain ⟨-, rfl⟩ := Prod.mk.inj heq
    unfold Workspace.session? Workspace.setSession
    cases after.sessions with
    | nil => exact hs
    | cons _ _ => exact hafter

/-- When a search is done, paging has just begun. -/
theorem fresh_searched {choice : Option SortChoice} {s : Session}
    (h : searched here i filters choice = .ok s) : s.IsFresh here.settings.batch := by
  unfold searched at h
  cases hopen : openVault here i.vault with
  | error failure =>
    rw [hopen] at h
    cases h
  | ok opened =>
    rw [hopen] at h
    obtain ⟨w, s⟩ := opened
    have hopened : s.IsFresh here.settings.batch := fresh_openVault hopen
    -- taking in filters and an order changes neither the hits nor the pager
    have hasked : ((withFilters w s filters).setSort choice).IsFresh here.settings.batch := hopened
    exact fresh_found hasked h

/-- The pages that are asked for, at least one of them, and no more than there are. -/
theorem window_showPages {s : Session} {batch : Nat} (h : s.IsFresh batch)
    (hword : s.hits.length < Decimal.wordLimit) (pages : Option Nat) :
    (showPages s pages).window =
      s.hits.take (match pages with
        | some pages => min (max pages 1 * max batch 1) s.hits.length
        | none => s.hits.length) := by
  have hshows : s.pager.Shows batch s.hits.length 1 := h ▸ Pager.shows_reset batch s.hits.length
  cases pages with
  | some pages =>
    have hshown := (hshows.advanceBy hword (pages - 1)).shown_eq
    have hpages : 1 + (pages - 1) = max pages 1 := by omega
    rw [hpages] at hshown
    exact congrArg s.hits.take hshown
  | none => exact congrArg s.hits.take (hshows.advanceAll hword)

/-- A search that is done prints the first pages of its hits, or all of them. -/
theorem result_search_of_ok {s : Session}
    (htask : i.task = .search filters sort reverse pages all json)
    (hfound :
      searched here i filters (SortChoice.requested sort reverse here.settings.sort) = .ok s)
    (hword : s.hits.length < Decimal.wordLimit) :
    Result.of (perform here i) =
      { lines := pageText here.zone here.styled (i.quiet || here.settings.quiet) json s.selection
          (if all then s.hits
            else s.hits.take (min (max pages 1 * max here.settings.batch 1) s.hits.length))
          s.hits.length } := by
  have hkept (pages : Option Nat) : (showPages s pages).selection = s.selection ∧
      (showPages s pages).hits = s.hits := by
    cases pages <;> exact ⟨rfl, rfl⟩
  rw [result_search htask, hfound]
  dsimp only
  rw [window_showPages (fresh_searched hfound) hword, (hkept _).1, (hkept _).2]
  cases all with
  | true =>
    simp only [if_true]
    rw [List.take_length]
  | false => rfl

/-- A pager never shows less or more than the batches that were asked for, up to the end, although
its sums stop at the largest word: each step shows something new exactly when something is left, and
showing all ends after as many steps as do so and one that does not. Whatever has happened to a
session, its pager counts the hits, it shows the first of them, as many as the pager says, and one
step more shows the batch that comes next. So a search prints the first pages of the hits that it
has found, as many as it is asked for and at least one, or all of the hits; if it fails, it
prints nothing. -/
theorem pages_lose_and_repeat_nothing :
    (∀ batch total : Nat, total < Decimal.wordLimit →
      let start := (Pager.ofBatch batch).reset total
      (∀ steps, let p := Pager.advance^[steps] start
        p.shown = min ((steps + 1) * max batch 1) total ∧ p.grows = p.hasMore ∧
          (p.hasMore = true → p.shown < p.advance.shown)) ∧
      start.advanceAll.shown = total ∧
      ∃ rounds, start.advanceAll = Pager.advance^[rounds + 1] start ∧
        (∀ round < rounds, (Pager.advance^[round] start).grows = true) ∧
        (Pager.advance^[rounds] start).grows = false) ∧
    (∀ s : Session, s.IsReached →
      s.pager.total = s.hits.length ∧ s.window = s.hits.take s.pager.shown ∧
        s.window.length = s.pager.shown ∧
        (s.hits.length < Decimal.wordLimit → s.pager.grows = s.pager.hasMore ∧
          s.advance.window = s.window ++ (s.hits.drop s.pager.shown).take s.pager.batch)) ∧
    ∀ (here : Surroundings) (i : Invocation) (filters : List Filter) (sort : Option SortKey)
      (reverse : Bool) (pages : Nat) (all json : Bool),
      i.task = .search filters sort reverse pages all json →
      let search := searched here i filters (SortChoice.requested sort reverse here.settings.sort)
      (∀ failure, search = .error failure →
        Result.of (perform here i) = { failure := some failure }) ∧
      ∀ s, search = .ok s → s.hits.length < Decimal.wordLimit →
        let page := if all then s.hits
          else s.hits.take (min (max pages 1 * max here.settings.batch 1) s.hits.length)
        Result.of (perform here i) =
          { lines := pageText here.zone here.styled (i.quiet || here.settings.quiet) json
              s.selection page s.hits.length } := by
  refine ⟨fun batch total hword => ?_, fun s hs => ?_, ?_⟩
  · intro start
    have hstart : start.Shows batch total 1 := Pager.shows_reset batch total
    refine ⟨fun steps => ?_, hstart.advanceAll hword, start.exists_advanceAll⟩
    intro p
    have hshows : p.Shows batch total (1 + steps) := hstart.iterate hword steps
    have hgrows : p.grows = p.hasMore := hshows.grows_eq_hasMore hword
    refine ⟨by rw [Nat.add_comm]; exact hshows.shown_eq, hgrows, fun hmore => ?_⟩
    rw [← hgrows] at hmore
    exact of_decide_eq_true hmore
  · have hpaged : s.IsPaged := hs.isPaged
    refine ⟨hpaged.total, rfl, hpaged.length_window, fun hword => ?_⟩
    obtain ⟨steps, hshows⟩ := hpaged.batches hword
    exact ⟨hshows.grows_eq_hasMore hword, hpaged.window_advance hword⟩
  · intro here i filters sort reverse pages all json htask search
    refine ⟨fun failure hfails => ?_, fun s hfound hword => result_search_of_ok htask hfound hword⟩
    change searched here i filters _ = .error failure at hfails
    rw [result_search htask, hfails]

/-- Two pages of three notes, where the settings ask for batches of none: each page has one. -/
theorem two_pages_of_three_notes :
    let names := ["a.md", "b.md", "c.md"]
    let here : Surroundings :=
      { disk := .ofTexts "v" (names.map fun name => ([name], some ("", {}))),
        settings := { batch := 0 }, settingsFile := "", styled := false, zone := fun _ => 3600 }
    let i : Invocation :=
      { task := .search [] none false 2 false false, vault := some "v", quiet := true }
    ((Pager.ofBatch 0).reset 3).advanceAll.shown = 3 ∧
      (Session.ofSuggestions []).advance.window = [] ∧
      ∃ s, searched here i [] none = .ok s ∧ s.hits.length = 3 ∧
        Result.of (perform here i) = { lines := ["a.md", "b.md"] } := by
  intro names here i
  obtain ⟨hpagers, hsessions, hsearches⟩ := pages_lose_and_repeat_nothing
  refine ⟨(hpagers 0 3 (by decide)).2.1, ?_, ?_⟩
  · obtain ⟨-, -, -, hnext⟩ := hsessions _ (.opened [])
    exact (hnext (by decide)).2
  · have hproper : Disk.Tree.AreProper (names.map fun name => ([name], some ("", {}))) :=
      ⟨by decide, by decide, by decide⟩
    have hname : Disk.IsName "v" := by decide
    have hlists : Vault.Folder.Lists here.disk "v" ["v"] (Vault.Folder.listed here.disk "v") :=
      Vault.Folder.lists_listed hproper.isPlain (hproper.locate hname) (by decide) (by decide)
    let catalogue : Vault.Catalogue := .ofNotes (names.map fun name => .ofBody name "" {} {})
    have hopen : Vault.Folder.openAt here.disk "v" = .ok ⟨"v", catalogue, []⟩ :=
      Vault.Folder.openFrom_ofTexts hproper hname hlists
    have hthree : (searched here i [] none).toOption.map (·.hits) =
        some (sortHits none (catalogue.select [])) := by
      have hroot : rootFor here i.vault = .ok "v" := rfl
      unfold searched openVault
      rw [hroot]
      simp only [bind, Except.bind, hopen]
      with_unfolding_all rfl
    cases hfound : searched here i [] none with
    | error failure =>
      rw [hfound] at hthree
      cases hthree
    | ok s =>
      rw [hfound] at hthree
      have hhits : s.hits = catalogue.select [] :=
        (Option.some.inj hthree).trans (List.mergeSort_of_pairwise (by decide))
      refine ⟨s, rfl, by rw [hhits]; rfl, ?_⟩
      have hprinted :=
        (hsearches here i [] none false 2 false false rfl).2 s hfound (hhits ▸ by decide)
      dsimp only at hprinted
      rw [hhits] at hprinted
      exact hprinted

end NoteSearch.Program
