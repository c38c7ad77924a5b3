import Mathlib.Data.List.TakeDrop
import NodeCpp.Net.Os

/-!
# One pass of a listener thread

A listener thread polls the socket that wakes it and the sockets of its agents. `pollPhase2` looks
for the entries that are ready as the main loop does, but the `break` behind `infraCheckPollFdSet`,
which in the main loop belongs to a `switch`, leaves the loop: of the sockets that are ready only the
first is served.
-/

namespace NodeCpp

/-- `NetSocketEntryForListenerThread::State`. -/
inductive ListenerEntryState
  | unused
  | sockIssued
  | sockAssociated
  | sockClosed
  deriving DecidableEq, Repr

/-- `NetSocketEntryForListenerThread` with its `pollfd`. -/
structure ListenerEntry where
  state : ListenerEntryState
  fd : Int
  revents : UInt16
  deriving DecidableEq, Repr

namespace ListenerEntry

def ready (e : ListenerEntry) : Bool := e.revents != 0

def isAssociated (e : ListenerEntry) : Bool := e.state == .sockAssociated

/-- `poll()` reports sockets only, and unused entries have none. -/
def Polled (e : ListenerEntry) : Prop := e.ready → 0 < e.fd ∧ e.state ≠ .unused

end ListenerEntry

/-- `NetSocketsForListenerThread` behind `poll()`: the awaker, and the entries from
`reserved_capacity` on. -/
structure ListenerTable where
  awaker : UInt16
  entries : List ListenerEntry
  polled : ∀ e ∈ entries, e.Polled

/-- What a pass calls: the handling of the awaker, and `infraCheckPollFdSet`. -/
inductive ListenerCall
  | awaker
  | socket (idx : Nat) (revents : UInt16)
  deriving DecidableEq, Repr

namespace ListenerTable

def reservedCapacity : Nat := 2

def retval (t : ListenerTable) : Nat := (if t.awaker = 0 then 0 else 1) + t.entries.countP (·.ready)

/-- The loop of `pollPhase2` from the entry `idx` on. `reventsAt( idx )` asserts that there is one. -/
def pollLoop (retval : Nat) : (processed idx : Nat) → List ListenerEntry →
    Except Failure (List ListenerCall)
  | processed, _, [] => if retval ≤ processed then .ok [] else .error .assertion
  | processed, idx, e :: entries =>
      if retval ≤ processed then .ok []
      else if e.ready then
        if 0 < e.fd ∧ e.state ≠ .unused then
          if e.isAssociated then .ok [.socket idx e.revents]
          else pollLoop retval (processed + 1) (idx + 1) entries
        else .error .assertion
      else pollLoop retval processed (idx + 1) entries

/-- `pollPhase2`. The messages that the awaker stands for add entries, or handling them fails. -/
def pollPhase2 (t : ListenerTable) (messages : Except Failure (List ListenerEntry)) :
    Except Failure (List ListenerCall) :=
  if t.awaker = 0 then pollLoop t.retval 0 reservedCapacity t.entries
  else do
    let added ← messages
    let calls ← pollLoop t.retval 1 reservedCapacity (t.entries ++ added)
    return .awaker :: calls

/-- The entries that are ready and associated. -/
def readySockets (idx : Nat) (entries : List ListenerEntry) : List ListenerCall :=
  ((entries.zipIdx idx).filter fun e => e.1.ready && e.1.isAssociated).map fun e =>
    .socket e.2 e.1.revents

def toServe (t : ListenerTable) : List ListenerCall :=
  (if t.awaker = 0 then [] else [.awaker]) ++ readySockets reservedCapacity t.entries

/-- The loop ends at the first socket that it serves. -/
theorem pollLoop_eq {retval processed : Nat} (idx : Nat) {entries : List ListenerEntry}
    (hpolled : ∀ e ∈ entries, e.Polled) (hretval : retval = processed + entries.countP (·.ready)) :
    pollLoop retval processed idx entries = .ok ((readySockets idx entries).take 1) := by
  induction entries generalizing processed idx with
  | nil =>
    rw [pollLoop, if_pos (show retval ≤ processed from Nat.le_of_eq hretval)]
    rfl
  | cons e entries ih =>
    have hrest : ∀ x ∈ entries, x.Polled := fun x hx => hpolled x (List.mem_cons_of_mem e hx)
    rw [List.countP_cons] at hretval
    cases hready : e.ready with
    | false =>
      have hskip : readySockets idx (e :: entries) = readySockets (idx + 1) entries := by
        simp [readySockets, List.zipIdx_cons, hready]
      have ih := ih (idx + 1) hrest (show retval = processed + _ by simpa [hready] using hretval)
      rw [hskip, ← ih, pollLoop]
      split
      · next hdone => cases entries <;> simp [pollLoop, hdone]
      · simp only [hready, Bool.false_eq_true, if_false]
    | true =>
      simp only [hready, if_true] at hretval
      rw [pollLoop, if_neg (by omega)]
      simp only [hready, if_true, hpolled e List.mem_cons_self hready, ne_eq, not_false_eq_true,
        and_self]
      cases hassoc : e.isAssociated with
      | false =>
        have hskip : readySockets idx (e :: entries) = readySockets (idx + 1) entries := by
          simp [readySockets, List.zipIdx_cons, hassoc]
        simp only [Bool.false_eq_true, if_false]
        rw [hskip]
        exact ih (idx + 1) hrest (by omega)
      | true => simp [readySockets, List.zipIdx_cons, hready, hassoc]

theorem readySockets_append (idx : Nat) (entries : List ListenerEntry) {added : List ListenerEntry}
    (hadded : ∀ e ∈ added, e.ready = false) :
    readySockets idx (entries ++ added) = readySockets idx entries := by
  have hnone : (added.zipIdx (idx + entries.length)).filter
      (fun e => e.1.ready && e.1.isAssociated) = [] := by
    rw [List.filter_eq_nil_iff]
    rintro ⟨e, i⟩ he
    simp [hadded e (List.fst_mem_of_mem_zipIdx he)]
  rw [readySockets, List.zipIdx_append, List.filter_append, hnone, List.append_nil, readySockets]

theorem pollPhase2_eq (t : ListenerTable) {messages : Except Failure (List ListenerEntry)}
    {added : List ListenerEntry} (hmessages : t.awaker ≠ 0 → messages = .ok added)
    (hadded : ∀ e ∈ added, e.ready = false) :
    t.pollPhase2 messages = .ok ((if t.awaker = 0 then [] else [.awaker]) ++
      (readySockets reservedCapacity t.entries).take 1) := by
  by_cases hawaker : t.awaker = 0
  · rw [pollPhase2, if_pos hawaker, if_pos hawaker,
      pollLoop_eq _ t.polled (by simp [retval, hawaker])]
    rfl
  · have hnone : added.countP (·.ready) = 0 := List.countP_eq_zero.mpr (by simpa using hadded)
    have hpolled : ∀ e ∈ t.entries ++ added, e.Polled := by
      intro e he hready
      rcases List.mem_append.mp he with he | he
      · exact t.polled e he hready
      · exact absurd hready (by simp [hadded e he])
    have hloop := pollLoop_eq reservedCapacity hpolled
      (show t.retval = 1 + _ by rw [List.countP_append, hnone, retval, if_neg hawaker]; rfl)
    rw [pollPhase2, if_neg hawaker, if_neg hawaker, hmessages hawaker]
    show (do let calls ← pollLoop _ 1 _ (t.entries ++ added); return _) = _
    rw [hloop, readySockets_append _ _ hadded]
    rfl

/-- A pass serves all that is ready exactly if the messages behind the awaker are handled and at
most one socket is ready. -/
theorem serves_iff (t : ListenerTable) {messages : Except Failure (List ListenerEntry)}
    (hadded : ∀ added, messages = .ok added → ∀ e ∈ added, e.ready = false) :
    t.pollPhase2 messages = .ok t.toServe ↔
      (t.awaker ≠ 0 → messages.isOk) ∧
        t.entries.countP (fun e => e.ready && e.isAssociated) ≤ 1 := by
  have hlength : (readySockets reservedCapacity t.entries).length =
      t.entries.countP (fun e => e.ready && e.isAssociated) := by
    rw [readySockets, List.length_map, ← List.countP_eq_length_filter]
    conv_rhs => rw [← List.zipIdx_map_fst 2 t.entries, List.countP_map]
    rfl
  -- what the pass calls, if the messages are handled
  have hserves : ∀ added, (t.awaker ≠ 0 → messages = .ok added) →
      (∀ e ∈ added, e.ready = false) → (t.pollPhase2 messages = .ok t.toServe ↔
        t.entries.countP (fun e => e.ready && e.isAssociated) ≤ 1) := by
    intro added hmessages hnone
    rw [t.pollPhase2_eq hmessages hnone, toServe, Except.ok.injEq, List.append_cancel_left_eq,
      List.take_eq_self_iff, hlength]
  by_cases hawaker : t.awaker = 0
  · rw [hserves [] (absurd hawaker) nofun]
    exact (and_iff_right (absurd hawaker)).symm
  · cases hmessages : messages with
    | ok added =>
      rw [← hmessages, hserves added (fun _ => hmessages) (hadded added hmessages), hmessages]
      exact (and_iff_right fun _ => rfl).symm
    | error failure =>
      rw [pollPhase2, if_neg hawaker]
      exact iff_of_false nofun fun h => absurd (h.1 hawaker) nofun

/-- The awaker and a socket. -/
def awakened : ListenerTable where
  awaker := 1
  entries := [⟨.sockAssociated, 5, 1⟩]
  polled := by simp [ListenerEntry.Polled]

theorem serves_iff_awaker :
    awakened.pollPhase2 (.ok [⟨.sockAssociated, 6, 0⟩]) = .ok [.awaker, .socket 2 1] := by
  refine (awakened.serves_iff ?_).mpr ⟨fun _ => rfl, by decide⟩
  rintro added ⟨⟩
  decide

/-- Two sockets, and new connections for both. -/
def twoReady : ListenerTable where
  awaker := 0
  entries := [⟨.sockAssociated, 5, 1⟩, ⟨.sockAssociated, 6, 1⟩]
  polled := by simp [ListenerEntry.Polled]

theorem twoReady_serves : twoReady.pollPhase2 (.ok []) = .ok [.socket 2 1] ∧
    twoReady.toServe = [.socket 2 1, .socket 3 1] := by
  decide

end ListenerTable

end NodeCpp
