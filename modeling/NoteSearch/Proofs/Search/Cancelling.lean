import NoteSearch.Search.Sharing

/-!
# When tickets are cancelled

However a version is shared, its number says how often it was raised, through whichever tracker; and
a ticket, or a copy of it, has the number from when it was issued. So it is cancelled exactly if the
version was raised since, and stays so, as long as the version is raised fewer times than there
are words.
-/
namespace NoteSearch.Search

namespace Move

/-- The move raises the version. -/
def raises : Move → Bool
  | bump _ => true
  | _ => false

/-- The move makes a ticket. -/
def makesTicket : Move → Bool
  | issue _ | issueUnlimited | copy _ => true
  | _ => false

end Move

namespace Sharing

/-! ## Histories

A history is a list of moves, the latest first. -/

/-- What comes of the moves of a history, if all of them can be made. -/
def after (s : Sharing) : List Move → Option Sharing
  | [] => some s
  | move :: earlier => (s.after earlier).bind (·.perform move)

/-- How often the version was raised. -/
def raised (history : List Move) : Nat := history.countP Move.raises

/-- How many tickets were made. -/
def made (history : List Move) : Nat := history.countP Move.makesTicket

/-- The moves since a ticket was issued, where a copy is as old as what it is a copy of. There are
none to tell if the ticket was issued as one that is never cancelled. -/
def since : List Move → Nat → Option (List Move)
  | [], _ => none
  | move :: earlier, ticket =>
    if ticket = made earlier then
      match move with
      | .issue _ => some []
      | .copy original => (since earlier original).map (move :: ·)
      | _ => none
    else (since earlier ticket).map (move :: ·)

variable {s s' : Sharing} {history earlier later : List Move} {move : Move}
  {slot ticket tracker : Nat} {held : Nat × Ticket}

theorem raised_pos_iff : 0 < raised history ↔ ∃ tracker, Move.bump tracker ∈ history := by
  rw [raised, List.countP_pos_iff]
  constructor
  · rintro ⟨move, hmove, hraises⟩
    cases move with
    | bump tracker => exact ⟨tracker, hmove⟩
    | share | issue | issueUnlimited | copy => cases hraises
  · rintro ⟨tracker, hmove⟩
    exact ⟨_, hmove, rfl⟩

theorem raised_append (later earlier : List Move) :
    raised (later ++ earlier) = raised later + raised earlier := List.countP_append

theorem raised_cons (move : Move) (earlier : List Move) :
    raised (move :: earlier) = raised earlier + if move.raises then 1 else 0 := List.countP_cons

theorem raised_bump (tracker : Nat) (earlier : List Move) :
    raised (.bump tracker :: earlier) = raised earlier + 1 := raised_cons _ _

theorem made_append (later earlier : List Move) :
    made (later ++ earlier) = made later + made earlier := List.countP_append

theorem made_cons (move : Move) (earlier : List Move) :
    made (move :: earlier) = made earlier + if move.makesTicket then 1 else 0 := List.countP_cons

/-- A ticket that is made stays among those that were made. -/
theorem made_lt_made_append (h : move.makesTicket = true) (later : List Move) :
    made earlier < made (later ++ move :: earlier) := by
  rw [made_append, made_cons, if_pos h]
  omega

theorem since_cons_of_ne (h : ticket ≠ made earlier) (move : Move) :
    since (move :: earlier) ticket = (since earlier ticket).map (move :: ·) := by
  rw [since.eq_def]
  exact if_neg h

theorem since_copy (earlier : List Move) (original : Nat) :
    since (.copy original :: earlier) (made earlier) =
      (since earlier original).map (.copy original :: ·) := by
  rw [since.eq_def]
  exact if_pos rfl

/-- A ticket gets older by what happens after it was made. -/
theorem since_append (h : ticket < made earlier) (later : List Move) :
    since (later ++ earlier) ticket = (since earlier ticket).map (later ++ ·) := by
  induction later with
  | nil => exact Option.map_id'.symm
  | cons move later ih =>
    have hold : ticket ≠ made (later ++ earlier) := by
      rw [made_append]
      omega
    rw [List.cons_append, since_cons_of_ne hold, ih, Option.map_map]
    rfl

theorem since_issue (earlier : List Move) (tracker : Nat) :
    since (.issue tracker :: earlier) (made earlier) = some [] := if_pos rfl

theorem since_issueUnlimited (earlier : List Move) :
    since (.issueUnlimited :: earlier) (made earlier) = none := if_pos rfl

/-- A ticket that is issued is as old as what has happened since. -/
theorem since_append_issue (later earlier : List Move) (tracker : Nat) :
    since (later ++ .issue tracker :: earlier) (made earlier) = some later := by
  have hmade : made earlier < made (.issue tracker :: earlier) := made_lt_made_append rfl []
  rw [since_append hmade, since_issue, Option.map_some, List.append_nil]

theorem since_append_issueUnlimited (later earlier : List Move) :
    since (later ++ .issueUnlimited :: earlier) (made earlier) = none := by
  have hmade : made earlier < made (.issueUnlimited :: earlier) := made_lt_made_append rfl []
  rw [since_append hmade, since_issueUnlimited, Option.map_none]

/-! ## What can be done -/

theorem bump_ofNat (n : Nat) : Version.bump ⟨UInt64.ofNat n⟩ = ⟨UInt64.ofNat (n + 1)⟩ :=
  congrArg Version.mk (UInt64.ofNat_add n 1).symm

theorem tracked?_eq_some_iff {version : Version} :
    s.tracked? tracker = some (slot, version) ↔
      s.trackers[tracker]? = some slot ∧ s.versions[slot]? = some version := by
  simp only [tracked?, bind, Option.bind_eq_some_iff, Option.some.injEq, Prod.mk.injEq]
  constructor
  · rintro ⟨_, htracker, _, hversion, rfl, rfl⟩
    exact ⟨htracker, hversion⟩
  · rintro ⟨htracker, hversion⟩
    exact ⟨slot, htracker, version, hversion, rfl, rfl⟩

/-! ## What holds throughout a history -/

/-- The number of a ticket is right if the version had it when the ticket was issued, and was raised
since as often as is said; it has no number if it is never cancelled. -/
def IsNumbered (slot raises : Nat) (held : Nat × Ticket) : Option (List Move) → Prop
  | some later => ∃ before, before + raised later = raises ∧
      held = (slot, ⟨some (UInt64.ofNat before)⟩)
  | none => held.2 = .unlimited

/-- All trackers track the version in one slot. It was raised as often as its number says, and so
was every ticket's when it was issued. -/
structure Reflects (s : Sharing) (slot : Nat) (history : List Move) : Prop where
  version : s.versions[slot]? = some ⟨UInt64.ofNat (raised history)⟩
  trackers : ∀ tracker ∈ s.trackers, tracker = slot
  made : s.tickets.length = made history
  tickets : ∀ ticket held, s.tickets[ticket]? = some held →
    IsNumbered slot (raised history) held (since history ticket)

theorem reflects_start (others : List Version) : (start others).Reflects others.length [] where
  version := by simp [start, raised]
  trackers := by simp [start]
  made := rfl
  tickets ticket held h := by simp [start] at h

/-- What happens makes no ticket's number wrong. -/
theorem IsNumbered.cons {raises : Nat} {later : Option (List Move)}
    (h : IsNumbered slot raises held later) (move : Move) :
    IsNumbered slot (raises + if move.raises then 1 else 0) held (later.map (move :: ·)) := by
  cases later with
  | none => exact h
  | some later =>
    obtain ⟨before, hraises, hheld⟩ := h
    refine ⟨before, ?_, hheld⟩
    rw [raised_cons, ← hraises, Nat.add_assoc]

namespace Reflects

/-- Where a tracker is, and which version it tracks. -/
theorem tracked? (h : s.Reflects slot history) (htracker : tracker < s.trackers.length) :
    s.tracked? tracker = some (slot, ⟨UInt64.ofNat (raised history)⟩) := by
  have hslot : s.trackers[tracker]? = some slot := by
    rw [List.getElem?_eq_getElem htracker, h.trackers _ (List.getElem_mem htracker)]
  exact tracked?_eq_some_iff.2 ⟨hslot, h.version⟩

theorem eq_of_tracked? (h : s.Reflects slot history) {found : Nat} {version : Version}
    (htracked : s.tracked? tracker = some (found, version)) :
    found = slot ∧ version = ⟨UInt64.ofNat (raised history)⟩ := by
  obtain ⟨htracker, -⟩ := tracked?_eq_some_iff.1 htracked
  obtain ⟨hlength, -⟩ := List.getElem?_eq_some_iff.1 htracker
  rw [h.tracked? hlength] at htracked
  obtain ⟨rfl, rfl⟩ := Prod.mk.inj (Option.some.inj htracked)
  exact ⟨rfl, rfl⟩

/-- The tickets of before are as old as before and what happens now. -/
theorem tickets_cons (h : s.Reflects slot history) (move : Move)
    (hheld : s.tickets[ticket]? = some held) :
    IsNumbered slot (raised (move :: history)) held (since (move :: history) ticket) := by
  obtain ⟨hticket, -⟩ := List.getElem?_eq_some_iff.1 hheld
  rw [h.made] at hticket
  rw [raised_cons, since_cons_of_ne (Nat.ne_of_lt hticket)]
  exact (h.tickets ticket held hheld).cons move

theorem made_concat (h : s.Reflects slot history) (hmakes : move.makesTicket = true)
    {new : Nat × Ticket} : (s.tickets ++ [new]).length = Sharing.made (move :: history) := by
  rw [List.length_append, List.length_singleton, h.made, made_cons, if_pos hmakes]

/-- So all tickets have their right numbers if a new one has. -/
theorem tickets_concat (h : s.Reflects slot history) (move : Move) {new : Nat × Ticket}
    (hnew : IsNumbered slot (raised (move :: history)) new
      (since (move :: history) (Sharing.made history)))
    (hheld : (s.tickets ++ [new])[ticket]? = some held) :
    IsNumbered slot (raised (move :: history)) held (since (move :: history) ticket) := by
  rw [List.getElem?_append] at hheld
  split at hheld
  · exact h.tickets_cons move hheld
  · next hlast =>
    rw [List.getElem?_singleton, h.made] at hheld
    rw [h.made, Nat.not_lt] at hlast
    split at hheld
    · next hzero =>
      obtain rfl := Option.some.inj hheld
      obtain rfl : ticket = Sharing.made history := by omega
      exact hnew
    · cases hheld

/-- What one move preserves. -/
theorem perform (h : s.Reflects slot history) (hmove : s.perform move = some s') :
    s'.Reflects slot (move :: history) := by
  cases move with
  | share tracker =>
    obtain ⟨shared, hshared, hs'⟩ := Option.bind_eq_some_iff.1 hmove
    obtain rfl := Option.some.inj hs'
    refine ⟨h.version, fun tracker htracker => ?_, h.made, fun ticket held => h.tickets_cons _⟩
    obtain hold | hnew := List.mem_append.1 htracker
    · exact h.trackers tracker hold
    · rw [List.mem_singleton.1 hnew]
      exact h.trackers shared (List.mem_of_getElem? hshared)
  | bump tracker =>
    obtain ⟨⟨number, raisedState⟩, hbump, rfl⟩ := Option.map_eq_some_iff.1 hmove
    obtain ⟨⟨found, version⟩, htracked, hs'⟩ := Option.bind_eq_some_iff.1 hbump
    obtain ⟨rfl, rfl⟩ := h.eq_of_tracked? htracked
    obtain ⟨rfl, rfl⟩ := Prod.mk.inj (Option.some.inj hs')
    obtain ⟨hslot, -⟩ := List.getElem?_eq_some_iff.1 h.version
    refine ⟨?_, h.trackers, h.made, fun ticket held => h.tickets_cons _⟩
    rw [List.getElem?_set_self hslot, bump_ofNat, raised_bump]
  | issue tracker =>
    obtain ⟨⟨found, version⟩, htracked, hs'⟩ := Option.bind_eq_some_iff.1 hmove
    obtain ⟨rfl, rfl⟩ := h.eq_of_tracked? htracked
    obtain rfl := Option.some.inj hs'
    refine ⟨h.version, h.trackers, h.made_concat rfl, fun ticket held => h.tickets_concat _ ?_⟩
    rw [since_issue]
    exact ⟨raised history, rfl, rfl⟩
  | issueUnlimited =>
    obtain rfl := Option.some.inj hmove
    refine ⟨h.version, h.trackers, h.made_concat rfl, fun ticket held => h.tickets_concat _ ?_⟩
    rw [since_issueUnlimited]
    rfl
  | copy original =>
    obtain ⟨copied, hcopied, hs'⟩ := Option.bind_eq_some_iff.1 hmove
    obtain rfl := Option.some.inj hs'
    refine ⟨h.version, h.trackers, h.made_concat rfl, fun ticket held => h.tickets_concat _ ?_⟩
    rw [since_copy, raised_cons]
    exact (h.tickets original copied hcopied).cons _

/-- What a whole history preserves. -/
theorem after (h : s.Reflects slot earlier) (hrun : s.after later = some s') :
    s'.Reflects slot (later ++ earlier) := by
  induction later generalizing s' with
  | nil =>
    obtain rfl := Option.some.inj hrun
    exact h
  | cons move later ih =>
    obtain ⟨between, hbetween, hmove⟩ := Option.bind_eq_some_iff.1 hrun
    exact (ih hbetween).perform hmove

/-- A tracker raises the version to the number of times that it was raised, so far as a word
goes. -/
theorem exists_bump (h : s.Reflects slot history) (htracker : tracker < s.trackers.length) :
    ∃ number s', s.bump tracker = some (number, s') ∧
      number = UInt64.ofNat (raised history + 1) := by
  refine ⟨_, _, Option.bind_eq_some_iff.2 ⟨_, h.tracked? htracker, rfl⟩, ?_⟩
  rw [bump_ofNat]

/-- A ticket is cancelled exactly if the version was raised since it was issued. -/
theorem isCancelled?_eq (h : s.Reflects slot history) (hfew : raised history < UInt64.size)
    (hticket : ticket < Sharing.made history) :
    s.isCancelled? ticket = some ((since history ticket).any fun later => 0 < raised later) := by
  obtain ⟨held, hheld⟩ : ∃ held, s.tickets[ticket]? = some held :=
    ⟨_, List.getElem?_eq_getElem (h.made ▸ hticket)⟩
  refine Option.bind_eq_some_iff.2 ⟨held, hheld, congrArg some ?_⟩
  have hnumbered := h.tickets ticket held hheld
  cases hsince : since history ticket with
  | none =>
    rw [hsince] at hnumbered
    rw [show held.2 = .unlimited from hnumbered]
    rfl
  | some later =>
    rw [hsince] at hnumbered
    obtain ⟨before, hraises, rfl⟩ := hnumbered
    have hmoved : UInt64.ofNat (raised history) ≠ UInt64.ofNat before ↔ 0 < raised later := by
      rw [Ne, ← UInt64.toNat_inj, UInt64.toNat_ofNat_of_lt' hfew,
        UInt64.toNat_ofNat_of_lt' (by omega)]
      omega
    simp only [Ticket.isCancelled, h.version, Option.getD_some, Option.any_some]
    rw [Bool.eq_iff_iff, bne_iff_ne, hmoved, decide_eq_true_iff]

end Reflects

/-- However a version is shared, beside whatever other versions there are: raising it through any
tracker gives how often it was raised by then through all of them. A ticket is cancelled exactly if
the version was raised since it was issued, or the ticket that it is a copy of. So what is
cancelled stays so, what was issued after the version was raised last is not, and a ticket issued as
one that is never cancelled never is. -/
theorem cancelled_iff_raised_since (others : List Version) {history : List Move} {s : Sharing}
    (hrun : (start others).after history = some s) (hfew : raised history < UInt64.size) :
    (∀ tracker < s.trackers.length, ∃ number s', s.bump tracker = some (number, s') ∧
      (raised history + 1 < UInt64.size → number.toNat = raised history + 1)) ∧
    (∀ ticket < s.tickets.length, ∃ cancelled, s.isCancelled? ticket = some cancelled ∧
      (cancelled = true ↔
        ∃ later, since history ticket = some later ∧ ∃ tracker, .bump tracker ∈ later)) ∧
    (∀ later s', s.after later = some s' → raised (later ++ history) < UInt64.size →
      ∀ ticket, s.isCancelled? ticket = some true → s'.isCancelled? ticket = some true) ∧
    (∀ later tracker earlier, history = later ++ .issue tracker :: earlier →
      (∀ tracker, .bump tracker ∉ later) → s.isCancelled? (made earlier) = some false) ∧
    ∀ later earlier, history = later ++ .issueUnlimited :: earlier →
      s.isCancelled? (made earlier) = some false := by
  have hreflects : s.Reflects others.length history := by
    have h := (reflects_start others).after hrun
    rwa [List.append_nil] at h
  refine ⟨fun tracker htracker => ?_, fun ticket hticket => ?_, ?_, ?_, ?_⟩
  · obtain ⟨number, s', hbump, rfl⟩ := hreflects.exists_bump htracker
    exact ⟨_, s', hbump, fun hmore => UInt64.toNat_ofNat_of_lt' hmore⟩
  · refine ⟨_, hreflects.isCancelled?_eq hfew (hreflects.made ▸ hticket), ?_⟩
    simp only [Option.any_eq_true, decide_eq_true_iff, raised_pos_iff]
  · intro later s' hlater hmore ticket hcancelled
    obtain ⟨held, hheld, -⟩ := Option.bind_eq_some_iff.1 hcancelled
    obtain ⟨hticket, -⟩ := List.getElem?_eq_some_iff.1 hheld
    rw [hreflects.made] at hticket
    have hnow := hreflects.isCancelled?_eq hfew hticket
    rw [hcancelled, eq_comm, Option.some.injEq, Option.any_eq_true] at hnow
    obtain ⟨between, hbetween, hraised⟩ := hnow
    rw [decide_eq_true_iff] at hraised
    have hlast : ticket < made (later ++ history) := by
      rw [made_append]
      omega
    rw [(hreflects.after hlater).isCancelled?_eq hmore hlast, since_append hticket, hbetween,
      Option.map_some, Option.any_some, raised_append, decide_eq_true (by omega)]
  · rintro later tracker earlier rfl hnone
    have hraised : ¬0 < raised later := by
      rw [raised_pos_iff, not_exists]
      exact hnone
    rw [hreflects.isCancelled?_eq hfew (made_lt_made_append rfl later), since_append_issue,
      Option.any_some, decide_eq_false hraised]
  · rintro later earlier rfl
    rw [hreflects.isCancelled?_eq hfew (made_lt_made_append rfl later), since_append_issueUnlimited,
      Option.any_none]

/-- Two trackers of a version that lies behind another, and tickets from either of them. The first
ticket and its copy are cancelled, and remain so; the later one is cancelled by whichever
tracker. -/
theorem cancelled_iff_raised_since_by_other :
    let history : List Move := [.issueUnlimited, .issue 0, .bump 0, .copy 0, .issue 1, .share 0]
    let s : Sharing := ⟨[⟨7⟩, ⟨1⟩], [1, 1],
      [(1, ⟨some 0⟩), (1, ⟨some 0⟩), (1, ⟨some 1⟩), (0, .unlimited)]⟩
    let s' : Sharing := { s with versions := [⟨7⟩, ⟨2⟩] }
    (start [⟨7⟩]).after history = some s ∧ s.after [.bump 1] = some s' ∧
      (∃ number t, s.bump 1 = some (number, t) ∧ number.toNat = 2) ∧
      s.isCancelled? 1 = some true ∧ s'.isCancelled? 1 = some true ∧
      s.isCancelled? 2 = some false ∧ s.isCancelled? 3 = some false := by
  intro history s s'
  have hrun : (start [⟨7⟩]).after history = some s := by decide
  have hmore : s.after [.bump 1] = some s' := by decide
  obtain ⟨hbump, hiff, hstays, hlive, hnever⟩ :=
    cancelled_iff_raised_since [⟨7⟩] hrun (by decide)
  obtain ⟨number, t, hnumber, hvalue⟩ := hbump 1 (by decide)
  obtain ⟨cancelled, hcancelled, hsince⟩ := hiff 1 (by decide)
  obtain rfl : cancelled = true :=
    hsince.2 ⟨[.issueUnlimited, .issue 0, .bump 0, .copy 0], by decide, 0, by decide⟩
  exact ⟨hrun, hmore, ⟨number, t, hnumber, hvalue (by decide)⟩, hcancelled,
    hstays [.bump 1] s' hmore (by decide) 1 hcancelled, hlive [.issueUnlimited] 0 _ rfl (by simp),
    hnever [] _ rfl⟩

end Sharing
end NoteSearch.Search
