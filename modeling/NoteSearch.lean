import NoteSearch.Decimal.Binary64
import NoteSearch.Keyed
import NoteSearch.Json.Reader
import NoteSearch.Json.Writer
import NoteSearch.Text.Alphabet
import NoteSearch.Text.Blank
import NoteSearch.Text.LowerCase
import NoteSearch.Text.Pieces
import NoteSearch.Text.Utf8
import NoteSearch.Time.Instant
import NoteSearch.Filter.Interchange
import NoteSearch.Filter.Written
import NoteSearch.Markdown.Links
import NoteSearch.Markdown.Tags
import NoteSearch.Query.Compile
import NoteSearch.Query.Read
import NoteSearch.Search.Needle
import NoteSearch.Search.Sorting
import NoteSearch.Search.Version
import NoteSearch.Search.Sharing
import NoteSearch.Vault.Catalogue
import NoteSearch.Search.Run
import NoteSearch.Suggestion.Collected
import NoteSearch.Session.Pager
import NoteSearch.Session.Selection
import NoteSearch.Session.Basic
import NoteSearch.Display.Lines
import NoteSearch.Vault.Memory
import NoteSearch.Vault.Folder
import NoteSearch.Workspace.Outside
import NoteSearch.Workspace.Basic
import NoteSearch.Failure
import NoteSearch.Settings.Saved
import NoteSearch.Toml.Scalar
import NoteSearch.Toml.Reader
import NoteSearch.Settings.Loaded
import NoteSearch.CommandLine.Invocation
import NoteSearch.Program.Basic
import NoteSearch.Main
import NoteSearch.Proofs.Query.Readable
import NoteSearch.Proofs.Query.Grammar
import NoteSearch.Proofs.Query.RoundTrip
import NoteSearch.Proofs.Order.Sorted
import NoteSearch.Proofs.Vault.Memory
import NoteSearch.Proofs.Filter.Meaning
import NoteSearch.Proofs.Search.Run
import NoteSearch.Proofs.Search.Sorting
import NoteSearch.Proofs.Search.Waiting
import NoteSearch.Proofs.Search.Conjunction
import NoteSearch.Proofs.Session.Current
import NoteSearch.Proofs.Workspace.Current
import NoteSearch.Proofs.Workspace.Courses
import NoteSearch.Proofs.Filter.Keys
import NoteSearch.Proofs.Suggestion.Distinct
import NoteSearch.Proofs.Search.Overtaking
import NoteSearch.Proofs.Vault.Backlinks
import NoteSearch.Proofs.Vault.Graph
import NoteSearch.Proofs.Session.Ticks
import NoteSearch.Proofs.Filter.Canonical
import NoteSearch.Proofs.Suggestion.Printed
import NoteSearch.Proofs.Vault.Resolved
import NoteSearch.Proofs.Vault.Growth
import NoteSearch.Proofs.Vault.History
import NoteSearch.Proofs.Workspace.Presence
import NoteSearch.Proofs.Workspace.Editing
import NoteSearch.Proofs.Suggestion.Origin
import NoteSearch.Proofs.Filter.Marked
import NoteSearch.Proofs.Vault.Ancestors
import NoteSearch.Proofs.Suggestion.Applied
import NoteSearch.Proofs.Session.Selecting
import NoteSearch.Proofs.Search.Joining
import NoteSearch.Proofs.Vault.Scanning
import NoteSearch.Proofs.Workspace.Reading
import NoteSearch.Proofs.Search.Ageless
import NoteSearch.Proofs.Workspace.Agreement
import NoteSearch.Proofs.Filter.FixedPoints
import NoteSearch.Proofs.Session.Paging
import NoteSearch.Proofs.Program.Pages
import NoteSearch.Proofs.Session.Stored
import NoteSearch.Proofs.Search.Verbatim
import NoteSearch.Proofs.Markdown.Places
import NoteSearch.Proofs.Vault.Answers
import NoteSearch.Proofs.Vault.TagTree
import NoteSearch.Proofs.Vault.FolderTree
import NoteSearch.Proofs.Markdown.LinkPlaces
import NoteSearch.Proofs.Vault.Preferred
import NoteSearch.Proofs.Search.Stable
import NoteSearch.Proofs.Suggestion.Complete
import NoteSearch.Proofs.Suggestion.Narrowed
import NoteSearch.Proofs.Search.Cancelling
import NoteSearch.Proofs.Toml.Quoted
import NoteSearch.Proofs.Toml.Plain
import NoteSearch.Proofs.Toml.Lines
import NoteSearch.Proofs.Settings.Saved
import NoteSearch.Proofs.Disk.Growth
import NoteSearch.Proofs.Settings.Kept
