import NoteSearch.Suggestion.Basic
import NoteSearch.Vault.Catalogue

/-!
# The suggestions of a vault

A vault suggests its tags, its folders, the targets of its links, and its notes as sources of
links. Where values are of one length they stay in this order.
-/
namespace NoteSearch.Suggestion
open Vault

/-- The filter on links to an offered target. -/
def ofTarget (target : LinkTarget) : Filter :=
  { probe := .link target.found target.label, value := target.path }

/-- All filters that a vault gives rise to. -/
def sources (c : Catalogue) : List Filter :=
  c.tags.map (fun (tag, _) => { probe := .tag, value := tag })
    ++ c.folders.map ({ probe := .folder, value := · })
    ++ c.linkTargets.map ofTarget
    ++ c.paths.map ({ probe := .backlink, value := · })

/-- The suggestions of a vault. -/
def collect (c : Catalogue) : List Filter := offered (sources c)

end NoteSearch.Suggestion
