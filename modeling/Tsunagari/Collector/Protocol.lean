import Mathlib.Data.Fintype.Card
import Mathlib.Data.Finset.Card
import Mathlib.Logic.Function.Basic
import Mathlib.Logic.Relation

/-!
# Threshold collection over a shared list

Participants each append one contribution to a shared list, count the list, and once the count
reaches a threshold `t` they put a ticket into a queue that holds at most one ticket. A server
takes the ticket, reads the list, empties it and submits what it read; then the ticket is gone.
Counting, looking for a ticket and adding one are separate steps, and so are reading and emptying
the list, so that other participants may move in between.

The append is issued first and takes effect later (but before the count). Where participants may
crash, one may stop at any time, and an append it has issued may still take effect.
-/

namespace Collector

/-- Where a participant is. -/
inductive Phase where
  /-- Nothing issued yet. -/
  | idle
  /-- The append is issued but has not taken effect. -/
  | issued
  /-- The contribution has been appended. -/
  | stored
  /-- The list has been counted; the flag says whether the threshold was reached. -/
  | counted (reached : Bool)
  /-- The threshold was reached and no ticket was found. -/
  | checked
  /-- The participant found a ticket or added one. -/
  | finished
  /-- The participant has stopped; the flag says whether an append is still under way. -/
  | stopped (queued : Bool)
  deriving DecidableEq

/-- The ticket and the server that works on it. -/
inductive Ticket (δ : Type*) where
  /-- There is no ticket. -/
  | absent
  /-- The ticket waits for a server. -/
  | waiting
  /-- A server has taken the ticket and is about to read the list. -/
  | reading
  /-- The server has read the contributions `l`. -/
  | held (l : List δ)
  /-- The server has emptied the list. -/
  | cleared (l : List δ)
  /-- The server is done, the ticket is about to be removed. -/
  | served

/-- The shared state; a contribution is named by its participant. -/
structure State (δ : Type*) where
  /-- The contributions in the shared list. -/
  list : List δ
  /-- Where each participant is. -/
  phase : δ → Phase
  /-- The ticket. -/
  ticket : Ticket δ
  /-- What has been submitted so far. -/
  submitted : List (List δ)
  /-- The participants that have run the step that adds a ticket. -/
  added : List δ

variable {δ : Type*} [DecidableEq δ]

/-- Adding a ticket while there is one changes nothing. -/
def Ticket.add : Ticket δ → Ticket δ
  | .absent => .waiting
  | .waiting => .waiting
  | .reading => .reading
  | .held l => .held l
  | .cleared l => .cleared l
  | .served => .served

/-- Move the participant `d` to the phase `p`. -/
def State.setPhase (s : State δ) (d : δ) (p : Phase) : State δ :=
  { s with phase := Function.update s.phase d p }

/-- The participants in `live` are about to start, the others never do. -/
def State.init (live : δ → Bool) : State δ :=
  { list := [], phase := fun d => if live d then .idle else .stopped false, ticket := .absent,
    submitted := [], added := [] }

/-- A participant that can still stop, together with whether its append is still under way. -/
def Phase.stop : Phase → Option Bool
  | .idle => some false
  | .issued => some true
  | .stored => some false
  | .counted _ => some false
  | .checked => some false
  | .finished => none
  | .stopped _ => none

/-- One step of a participant or of the server, with threshold `t`; `crash` says whether
participants may stop. -/
inductive Step (t : ℕ) (crash : Prop) : State δ → State δ → Prop where
  | issue {s : State δ} (d : δ) (h : s.phase d = .idle) : Step t crash s (s.setPhase d .issued)
  | store {s : State δ} (d : δ) (h : s.phase d = .issued) :
      Step t crash s { s.setPhase d .stored with list := s.list ++ [d] }
  | storeStopped {s : State δ} (d : δ) (h : s.phase d = .stopped true) :
      Step t crash s { s.setPhase d (.stopped false) with list := s.list ++ [d] }
  | count {s : State δ} (d : δ) (h : s.phase d = .stored) :
      Step t crash s (s.setPhase d (.counted (decide (t ≤ s.list.length))))
  | find {s : State δ} (d : δ) (h : s.phase d = .counted true) (ht : s.ticket ≠ .absent) :
      Step t crash s (s.setPhase d .finished)
  | miss {s : State δ} (d : δ) (h : s.phase d = .counted true) (ht : s.ticket = .absent) :
      Step t crash s (s.setPhase d .checked)
  | add {s : State δ} (d : δ) (h : s.phase d = .checked) :
      Step t crash s { s.setPhase d .finished with ticket := s.ticket.add, added := s.added ++ [d] }
  | stop {s : State δ} (d : δ) (q : Bool) (hc : crash) (h : (s.phase d).stop = some q) :
      Step t crash s (s.setPhase d (.stopped q))
  | take {s : State δ} (h : s.ticket = .waiting) : Step t crash s { s with ticket := .reading }
  | readEmpty {s : State δ} (h : s.ticket = .reading) (hl : s.list = []) :
      Step t crash s { s with ticket := .served }
  | read {s : State δ} (h : s.ticket = .reading) (hl : s.list ≠ []) :
      Step t crash s { s with ticket := .held s.list }
  | clear {s : State δ} (l : List δ) (h : s.ticket = .held l) :
      Step t crash s { s with list := [], ticket := .cleared l }
  | submit {s : State δ} (l : List δ) (h : s.ticket = .cleared l) :
      Step t crash s { s with ticket := .served, submitted := s.submitted ++ [l] }
  | finish {s : State δ} (h : s.ticket = .served) : Step t crash s { s with ticket := .absent }

/-- Any number of steps. -/
abbrev Steps (t : ℕ) (crash : Prop) : State δ → State δ → Prop :=
  Relation.ReflTransGen (Step t crash)

/-- The participant's contribution has reached the list and it went on. -/
def Phase.Entered : Phase → Prop
  | .stored => True
  | .counted _ => True
  | .checked => True
  | .finished => True
  | _ => False

/-- The participant has seen the threshold reached. -/
def Phase.Reached : Phase → Prop
  | .counted b => b = true
  | .checked => True
  | .finished => True
  | _ => False

/-- The participant may still append. -/
def Phase.Pending : Phase → Prop
  | .idle => True
  | .issued => True
  | .stopped q => q = true
  | _ => False

/-- A server has emptied the list at least once. -/
def State.Drained (s : State δ) : Prop := s.submitted ≠ [] ∨ ∃ l, s.ticket = .cleared l

end Collector
