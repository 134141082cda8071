import NoteSearch.Proofs.Vault.Backlinks

/-!
# What creation times make no difference to

When a document was created is shown in answers and nowhere else. So two catalogues with the same
notes but for their creation times have the same paths, tags, folders, links and targets of links,
and give the same answers but for these times.
-/
namespace NoteSearch
open Search Query

/-- The hit as if nothing was known about its creation. -/
def Search.Hit.ageless (h : Hit) : Hit := { h with created := {} }

namespace Vault

/-- The note as if nothing was known about its creation. -/
def Note.ageless (n : Note) : Note := { n with created := {} }

def Entry.ageless (e : Entry) : Entry := { e with note := e.note.ageless }

namespace Catalogue

/-- The catalogue as if nothing was known about when its notes were created. -/
def ageless (c : Catalogue) : Catalogue := { c with entries := c.entries.map Entry.ageless }

variable (c : Catalogue)

theorem paths_ageless : c.ageless.paths = c.paths := by
  rw [paths, ageless, List.map_map]
  rfl

theorem entry?_ageless (path : String) :
    c.ageless.entry? path = (c.entry? path).map Entry.ageless := by
  rw [Catalogue.entry?, ageless, List.find?_map]
  rfl

theorem note?_ageless (path : String) : c.ageless.note? path = (c.note? path).map Note.ageless := by
  rw [note?, entry?_ageless, Option.map_map, note?, Option.map_map]
  rfl

theorem linksOf_ageless (path : String) : c.ageless.linksOf path = c.linksOf path := by
  rw [linksOf, entry?_ageless, Option.map_map, linksOf]
  rfl

theorem tagUses_ageless : c.ageless.tagUses = c.tagUses := by
  rw [tagUses, ageless, List.flatMap_map]
  rfl

theorem tags_ageless : c.ageless.tags = c.tags := by
  rw [tags, tagUses_ageless, tags]

theorem links_ageless : c.ageless.links = c.links := by
  rw [links, ageless, List.flatMap_map]
  rfl

theorem linkTargets_ageless : c.ageless.linkTargets = c.linkTargets := by
  rw [linkTargets, links_ageless, paths_ageless, linkTargets]

theorem backlinkCount_ageless (path : String) :
    c.ageless.backlinkCount path = c.backlinkCount path := rfl

theorem resolve_ageless (target : String) : c.ageless.resolve target = c.resolve target := by
  rw [resolve, paths_ageless, resolve]

theorem holds_ageless (e : Entry) (term : Term) :
    c.ageless.holds e.ageless term = c.holds e term := by
  unfold holds
  cases term.kind with
  | tag => rfl
  | folder => rfl
  | link =>
    change (c.ageless.linksOf e.note.path).any _ = _
    rw [linksOf_ageless, resolve_ageless]
  | outgoing =>
    dsimp only
    rw [resolve_ageless]
    cases c.resolve term.target with
    | none => rfl
    | some source =>
      dsimp only
      rw [linksOf_ageless]
      rfl

theorem hit_ageless (n : Note) : c.ageless.hit n.ageless = (c.hit n).ageless := by
  rw [hit, backlinkCount_ageless]
  rfl

theorem select_ageless (terms : List Term) :
    c.ageless.select terms = (c.select terms).map Hit.ageless := by
  have hentries : c.ageless.entries = c.entries.map Entry.ageless := rfl
  rw [select, hentries, List.filter_map, select, List.map_map, List.map_map]
  have hsame :
      (fun e => terms.all fun term => c.ageless.holds e term != term.negated) ∘ Entry.ageless =
        fun e => terms.all fun term => c.holds e term != term.negated := by
    funext e
    simp only [Function.comp_apply, holds_ageless]
  rw [hsame]
  exact List.map_congr_left fun e _ => c.hit_ageless e.note

theorem answer_ageless (query : String) :
    c.ageless.answer query = (c.answer query).map (List.map Hit.ageless) := by
  unfold answer
  cases Query.read query with
  | ok terms => exact congrArg Except.ok (c.select_ageless terms)
  | error fault => rfl

/-! ## Catalogues of the same notes -/

variable {c} {c' : Catalogue}

/-- Whatever is asked of the two catalogues but their folders, the answers are the same, and that of
queries but for the creation times. -/
structure SameButAge (c c' : Catalogue) : Prop where
  paths : c.paths = c'.paths
  note? : ∀ path, (c.note? path).map Note.ageless = (c'.note? path).map Note.ageless
  tags : c.tags = c'.tags
  linkTargets : c.linkTargets = c'.linkTargets
  answer : ∀ query, (c.answer query).map (List.map Hit.ageless) =
    (c'.answer query).map (List.map Hit.ageless)

/-- The folders make no difference to anything else. -/
theorem sameButAge_of_entries (hentries : c.ageless.entries = c'.ageless.entries)
    (hbacklinks : c.backlinks = c'.backlinks) : SameButAge c c' := by
  have hsame :
      (⟨c'.ageless.entries, c.ageless.folders, c'.ageless.backlinks⟩ : Catalogue) = c.ageless := by
    rw [← hentries]
    exact congrArg (Catalogue.mk c.ageless.entries c.ageless.folders) hbacklinks.symm
  have hpaths : c.ageless.paths = c'.ageless.paths := by rw [← hsame]; rfl
  have hnote (path : String) : c.ageless.note? path = c'.ageless.note? path := by rw [← hsame]; rfl
  have htags : c.ageless.tags = c'.ageless.tags := by rw [← hsame]; rfl
  have htargets : c.ageless.linkTargets = c'.ageless.linkTargets := by rw [← hsame]; rfl
  have hanswer (query : String) : c.ageless.answer query = c'.ageless.answer query := by
    rw [← hsame]
    rfl
  constructor
  case paths => rwa [paths_ageless, paths_ageless] at hpaths
  case note? => simpa only [note?_ageless] using hnote
  case tags => rwa [tags_ageless, tags_ageless] at htags
  case linkTargets => rwa [linkTargets_ageless, linkTargets_ageless] at htargets
  case answer => simpa only [answer_ageless] using hanswer

theorem ageless_ofNotes (notes : List Note) :
    (ofNotes notes).ageless = ofNotes (notes.map Note.ageless) := by
  have hsorted : Order.ofList Note.byPath (notes.map Note.ageless) =
      (Order.ofList Note.byPath notes).map Note.ageless :=
    Order.ofList_map (fun _ _ => rfl) notes
  have hentries : (ofNotes notes).entries.map Entry.ageless =
      (ofNotes (notes.map Note.ageless)).entries := by
    unfold ofNotes
    dsimp only
    rw [hsorted, List.map_map, List.map_map, List.map_map]
    rfl
  have hfolders : (ofNotes notes).folders = (ofNotes (notes.map Note.ageless)).folders := by
    unfold ofNotes
    dsimp only
    rw [hsorted, List.flatMap_map]
    rfl
  -- what is noted down of an entry is its path and its links
  have hbacklinks : (ofNotes notes).backlinks = (ofNotes (notes.map Note.ageless)).backlinks := by
    rw [backlinks_ofNotes, backlinks_ofNotes, ← hentries, List.foldl_map]
    rfl
  rw [ageless, hentries, hfolders, hbacklinks]

/-- The same notes in any order make the same catalogue but for their creation times. -/
theorem ageless_ofNotes_eq {notes notes' : List Note} (hdistinct : (notes.map (·.path)).Nodup)
    (hperm : (notes.map Note.ageless).Perm (notes'.map Note.ageless)) :
    (ofNotes notes).ageless = (ofNotes notes').ageless := by
  have hpaths : ((notes.map Note.ageless).map (·.path)).Nodup := by
    rw [List.map_map]
    exact hdistinct
  rw [ageless_ofNotes, ageless_ofNotes, ofNotes_eq_of_perm hpaths hperm]

end Catalogue
end Vault
end NoteSearch
