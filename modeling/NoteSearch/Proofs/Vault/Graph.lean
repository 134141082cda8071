import NoteSearch.Proofs.Vault.Answers
import NoteSearch.Proofs.Vault.Backlinks

/-!
# The graph of links

The links between the notes of a catalogue can be asked for from either end, and they are counted.
For notes whose paths can be named in queries and stand for themselves all three ways agree: what
links to a note, what a note links to, and the number of backlinks are one graph.
-/
namespace NoteSearch.Vault
open Search Query

/-- A link that leads nowhere does not bear the path of a note that stands for itself. -/
theorem Link.target_ofRaw_eq_iff {paths : List String} {path : String}
    (h : resolve paths path = some path) (raw : Markdown.RawLink) :
    (Link.ofRaw paths raw).target = path ↔
      (Link.ofRaw paths raw).found = true ∧ (Link.ofRaw paths raw).target = path := by
  refine ⟨fun htarget => ⟨?_, htarget⟩, And.right⟩
  unfold Link.ofRaw at htarget ⊢
  cases hresolve : resolve paths raw.target with
  | some found => rfl
  | none =>
    simp only [hresolve] at htarget
    rw [htarget, h] at hresolve
    cases hresolve

namespace Catalogue

/-- The path can be named in a query about links, and stands for the note of that path. -/
structure Names (c : Catalogue) (path : String) : Prop where
  ne_empty : path ≠ ""
  no_bracket : ']' ∉ path.toList
  resolves : c.resolve path = some path

variable {notes : List Note} {c : Catalogue} {p q : String} {e : Entry}

/-! ## Queries of one term -/

theorem Names.isReadable_link (h : c.Names p) : Term.IsReadable ⟨.link, p, false⟩ := by
  have hbracket : ∀ mark : List Char, ']' ∈ mark → ¬ mark <:+: p.toList :=
    fun mark hmark hwithin => h.no_bracket (hwithin.subset hmark)
  refine ⟨by simpa using h.ne_empty, hbracket _ (by simp), fun hsuffix => ?_⟩
  exact hbracket _ (by simp) hsuffix.isInfix

theorem Names.isReadable_outgoing (h : c.Names q) : Term.IsReadable ⟨.outgoing, q, false⟩ :=
  ⟨by simpa using h.ne_empty, fun hwithin => h.no_bracket (hwithin.subset (by simp))⟩

theorem answer_write_singleton (c : Catalogue) {t : Term} (h : t.IsReadable) :
    c.answer (write [t]) = .ok (c.select [t]) := by
  have hread : read (write [t]) = .ok [t] :=
    read_eq_ok_iff.2 (.inr ⟨by simp, by simpa using h, rfl⟩)
  exact answer_of_read hread

theorem write_link (p : String) : write [⟨.link, p, false⟩] = "[[" ++ p ++ "]]" := by
  rw [← String.toList_inj, toList_write_singleton]
  simp [Term.written]

theorem write_outgoing (q : String) :
    write [⟨.outgoing, q, false⟩] = "outgoing([[" ++ q ++ "]])" := by
  rw [← String.toList_inj, toList_write_singleton]
  simp [Term.written]

/-- The notes that a term selects, by their paths. -/
theorem mem_paths_select_iff {kind : TermKind} {target path : String} :
    path ∈ (c.select [⟨kind, target, false⟩]).map (·.path) ↔
      ∃ e ∈ c.entries, e.note.path = path ∧ c.holds e ⟨kind, target, false⟩ = true := by
  rw [select_singleton, List.map_map, List.mem_map]
  simp only [List.mem_filter, and_assoc]
  exact exists_congr fun e => and_congr_right fun _ => and_comm

/-! ## The two ends of a link -/

theorem exists_raw_of_mem_links (he : e ∈ (ofNotes notes).entries) {link : Link}
    (hlink : link ∈ e.links) : ∃ raw, Link.ofRaw (ofNotes notes).paths raw = link := by
  rw [entries_ofNotes] at he
  obtain ⟨note, -, rfl⟩ := List.mem_map.1 he
  obtain ⟨raw, -, hraw⟩ := List.mem_map.1 hlink
  exact ⟨raw, hraw⟩

/-- Asked from the target, a link is one that is found. -/
theorem holds_link (hp : (ofNotes notes).Names p) (he : e ∈ (ofNotes notes).entries) :
    (ofNotes notes).holds e ⟨.link, p, false⟩ = e.linksTo p := by
  have hresolve : Vault.resolve (ofNotes notes).paths p = some p := hp.resolves
  simp only [holds, hp.resolves, Option.getD_some, linksOf_of_mem he, Entry.linksTo]
  rw [Bool.eq_iff_iff, List.any_eq_true, List.any_eq_true]
  refine exists_congr fun link => and_congr_right fun hlink => ?_
  obtain ⟨raw, rfl⟩ := exists_raw_of_mem_links he hlink
  simpa using Link.target_ofRaw_eq_iff hresolve raw

/-- Asked from the source, a link is one that is found, too. -/
theorem holds_outgoing (hq : c.Names q) (e : Entry) :
    c.holds e ⟨.outgoing, q, false⟩ =
      (c.linksOf q).any fun link => link.found && link.target == e.note.path := by
  simp only [holds, hq.resolves]

theorem Names.exists_entry (h : c.Names p) : ∃ e ∈ c.entries, e.note.path = p :=
  List.mem_map.1 (mem_of_resolve h.resolves)

/-- A note is asked for by its backlinks when it links to the other. -/
theorem mem_paths_select_link_iff (hp : (ofNotes notes).Names p) (hq : (ofNotes notes).Names q) :
    q ∈ ((ofNotes notes).select [⟨.link, p, false⟩]).map (·.path) ↔
      ∃ link ∈ (ofNotes notes).linksOf q, link.found = true ∧ link.target = p := by
  obtain ⟨source, hsource, rfl⟩ := hq.exists_entry
  have hlinks : source.linksTo p = true ↔
      ∃ link ∈ (ofNotes notes).linksOf source.note.path, link.found = true ∧ link.target = p := by
    simp [Entry.linksTo, linksOf_of_mem hsource]
  rw [mem_paths_select_iff, ← hlinks]
  constructor
  · rintro ⟨e, he, hpath, hholds⟩
    have hsame : e = source := by
      have hfind := entry?_of_mem he
      rw [hpath, entry?_of_mem hsource] at hfind
      exact (Option.some.inj hfind).symm
    rwa [hsame, holds_link hp hsource] at hholds
  · intro hlinksTo
    exact ⟨source, hsource, rfl, (holds_link hp hsource).trans hlinksTo⟩

/-- A note is asked for by the links of the other when that links to it. -/
theorem mem_paths_select_outgoing_iff (hp : c.Names p) (hq : c.Names q) :
    p ∈ (c.select [⟨.outgoing, q, false⟩]).map (·.path) ↔
      ∃ link ∈ c.linksOf q, link.found = true ∧ link.target = p := by
  rw [mem_paths_select_iff]
  constructor
  · rintro ⟨e, -, rfl, hholds⟩
    simpa [holds_outgoing hq] using hholds
  · intro hlink
    obtain ⟨target, htarget, rfl⟩ := hp.exists_entry
    exact ⟨target, htarget, rfl, by simpa [holds_outgoing hq] using hlink⟩

/-! ## Counting -/

/-- No note is selected twice. -/
theorem nodup_paths_select (notes : List Note) (terms : List Term) :
    (((ofNotes notes).select terms).map (·.path)).Nodup :=
  List.pairwise_map.2 ((pairwise_select notes terms).imp fun hlt => ne_of_compare_lt hlt)

theorem length_select_link (hp : (ofNotes notes).Names p) :
    ((ofNotes notes).select [⟨.link, p, false⟩]).length = (ofNotes notes).backlinkCount p := by
  rw [select_singleton, List.length_map, backlinkCount_ofNotes, List.countP_eq_length_filter]
  exact congrArg _ (List.filter_congr fun e he => holds_link hp he)

/-- A hit of an answer bears the number of notes that link to it. -/
theorem backlinks_of_mem_answer {query : String} {hits : List Hit}
    (h : c.answer query = .ok hits) {hit : Hit} (hhit : hit ∈ hits) :
    hit.backlinks = c.backlinkCount hit.path := by
  obtain ⟨e, -, rfl⟩ := exists_of_mem_answer h hhit
  rfl

theorem compile_backlinksFilter (hit : Hit) :
    compile [hit.backlinksFilter] = write [⟨.link, hit.path, false⟩] := rfl

/-- Of two notes that can be named, the query for what links to the first finds the second exactly
when the query for what the second links to finds the first, which is when the second has a link
that leads to the first. The query for what links to the first finds each note once, and
as many of them as every hit of the first says; its filter on backlinks asks for the same. -/
theorem links_from_both_ends (notes : List Note) (p q : String)
    (hp : (ofNotes notes).Names p) (hq : (ofNotes notes).Names q) :
    ∃ linking linked,
      (ofNotes notes).answer ("[[" ++ p ++ "]]") = .ok linking ∧
      (ofNotes notes).answer ("outgoing([[" ++ q ++ "]])") = .ok linked ∧
      (q ∈ linking.map (·.path) ↔ p ∈ linked.map (·.path)) ∧
      (p ∈ linked.map (·.path) ↔
        ∃ link ∈ (ofNotes notes).linksOf q, link.found = true ∧ link.target = p) ∧
      (linking.map (·.path)).Nodup ∧
      (ofNotes notes).backlinkCount p = linking.length ∧
      ∀ query hits, (ofNotes notes).answer query = .ok hits → ∀ hit ∈ hits, hit.path = p →
        hit.backlinks = linking.length ∧
        (ofNotes notes).answer (compile [hit.backlinksFilter]) = .ok linking := by
  have hlinking : (ofNotes notes).answer (write [⟨.link, p, false⟩]) =
      .ok ((ofNotes notes).select [⟨.link, p, false⟩]) :=
    answer_write_singleton _ hp.isReadable_link
  have hlinked : (ofNotes notes).answer (write [⟨.outgoing, q, false⟩]) =
      .ok ((ofNotes notes).select [⟨.outgoing, q, false⟩]) :=
    answer_write_singleton _ hq.isReadable_outgoing
  have hfrom := mem_paths_select_outgoing_iff hp hq
  refine ⟨_, _, by rw [← write_link, hlinking], by rw [← write_outgoing, hlinked],
    (mem_paths_select_link_iff hp hq).trans hfrom.symm, hfrom, nodup_paths_select notes _,
    (length_select_link hp).symm, ?_⟩
  rintro query hits hanswer hit hhit rfl
  refine ⟨?_, by rw [compile_backlinksFilter, hlinking]⟩
  rw [backlinks_of_mem_answer hanswer hhit, length_select_link hp]

/-- Of two notes one links to the other twice, the second time under another name. -/
theorem links_from_both_ends_of_two :
    let notes := [Note.ofBody "plans/a.md" "[[b]] and [[b.md|the other]], not [[c]]" ⟨1, 0⟩ ⟨2, 0⟩,
      Note.ofBody "b.md" "[[c]]" ⟨3, 0⟩ ⟨3, 0⟩]
    (ofNotes notes).Names "plans/a.md" ∧ (ofNotes notes).Names "b.md" ∧
      ∃ linking linked,
        (ofNotes notes).answer "[[b.md]]" = .ok linking ∧
        (ofNotes notes).answer "outgoing([[plans/a.md]])" = .ok linked ∧
        "plans/a.md" ∈ linking.map (·.path) ∧ "b.md" ∈ linked.map (·.path) ∧
        linking.length = 1 := by
  intro notes
  have hsource : (ofNotes notes).Names "plans/a.md" :=
    ⟨by decide, by decide, by decide +kernel⟩
  have htarget : (ofNotes notes).Names "b.md" := ⟨by decide, by decide, by decide +kernel⟩
  have hcount : (ofNotes notes).backlinkCount "b.md" = 1 := by decide +kernel
  have hlink : ∃ link ∈ (ofNotes notes).linksOf "plans/a.md",
      link.found = true ∧ link.target = "b.md" := by decide +kernel
  obtain ⟨linking, linked, hlinking, hlinked, hends, hfrom, -, hlength, -⟩ :=
    links_from_both_ends notes "b.md" "plans/a.md" htarget hsource
  have hfound := hfrom.2 hlink
  exact ⟨hsource, htarget, linking, linked, hlinking, hlinked, hends.2 hfound, hfound,
    hlength.symm.trans hcount⟩

end Catalogue
end NoteSearch.Vault
