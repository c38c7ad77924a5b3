import NodeCpp.Cluster.Awaker
import NodeCpp.Lib.Position

/-!
# A byte for every message

Every message in the queue has a byte: in the connection, received by the reader, or still to be
sent by the thread that has pushed the message. So there are never more bytes than messages, and
the reader finds as many messages as it has received bytes, although they need not be the messages
these bytes were sent for.

* `AwakerWorld.Inv` -- the count.
* `awaker_protocol` -- what holds after every run.
-/

namespace NodeCpp

open Lib

variable {μ : Type}

namespace PostEvent

def posted? : PostEvent μ → Option (Nat × μ)
  | posted msg => some msg
  | _ => none

def delivered? : PostEvent μ → Option (Nat × μ)
  | delivered msg => some msg
  | _ => none

end PostEvent

def postedMsgs (l : List (PostEvent μ)) : List (Nat × μ) := l.filterMap PostEvent.posted?

def deliveredMsgs (l : List (PostEvent μ)) : List (Nat × μ) := l.filterMap PostEvent.delivered?

@[simp] theorem postedMsgs_append (l l' : List (PostEvent μ)) :
    postedMsgs (l ++ l') = postedMsgs l ++ postedMsgs l' := List.filterMap_append

@[simp] theorem deliveredMsgs_append (l l' : List (PostEvent μ)) :
    deliveredMsgs (l ++ l') = deliveredMsgs l ++ deliveredMsgs l' := List.filterMap_append

@[simp] theorem postedMsgs_delivered (msgs : List (Nat × μ)) :
    postedMsgs (msgs.map PostEvent.delivered) = [] := by
  induction msgs with
  | nil => rfl
  | cons msg msgs ih => exact ih

@[simp] theorem deliveredMsgs_delivered (msgs : List (Nat × μ)) :
    deliveredMsgs (msgs.map PostEvent.delivered) = msgs := by
  induction msgs with
  | nil => rfl
  | cons msg msgs ih =>
    show msg :: deliveredMsgs (msgs.map PostEvent.delivered) = msg :: msgs
    rw [ih]

/-- What holds after a run that has shown `l`. -/
structure AwakerCorrect (w : AwakerWorld μ) (l : List (PostEvent μ)) : Prop where
  /-- There are never more unread bytes than messages. -/
  bytes_le : w.bytes ≤ w.queue.coll.size
  /-- The pop neither blocks nor fails the assertion behind it. -/
  pop_ok : ∀ count, w.received = some count → ((awaker μ).step w .pop).isSome
  /-- The messages are delivered in the order in which they are posted, each once. -/
  delivered : ∃ waiting, w.queue.Holds waiting ∧ postedMsgs l = deliveredMsgs l ++ waiting
  /-- Those of one sender are delivered in the order in which it has posted them. -/
  sender : ∀ s, ((deliveredMsgs l).filter fun msg => msg.1 == s).IsPrefix
    ((postedMsgs l).filter fun msg => msg.1 == s)
  /-- When every thread has sent its byte and all bytes have been dealt with, all messages have
  been delivered. -/
  complete : w.bytes = 0 → w.received = none → true ∉ w.posting → deliveredMsgs l = postedMsgs l

namespace AwakerWorld

variable {w w' : AwakerWorld μ} {l ev : List (PostEvent μ)} {msgs : List (Nat × μ)}

/-- The invariant: where the bytes of the messages are. -/
structure Inv (w : AwakerWorld μ) (l : List (PostEvent μ)) (msgs : List (Nat × μ)) : Prop where
  holds : w.queue.Holds msgs
  fifo : postedMsgs l = deliveredMsgs l ++ msgs
  count : msgs.length = w.bytes + w.received.getD 0 + w.posting.countP id
  received : ∀ k, w.received = some k → 1 ≤ k

namespace Inv

theorem initial (n : Nat) : (AwakerWorld.initial μ n).Inv [] [] where
  holds := MWSRQueue.Holds.empty
  fifo := rfl
  count := by
    show 0 = 0 + 0 + (List.replicate n false).countP id
    rw [List.countP_replicate]
    rfl
  received := nofun

theorem pop (h : w.Inv l msgs) {k : Nat} (hk : w.received = some k) :
    ∃ w' ev msgs', w.exec .pop = some (w', ev) ∧ w'.Inv (l ++ ev) msgs' := by
  have hcount := h.count
  have hpos := h.received k hk
  rw [hk, Option.getD_some] at hcount
  have hready : MWSRQueue.Holds.ready msgs (.many k) false := by
    refine .inl ?_
    rintro rfl
    simp only [List.length_nil] at hcount
    omega
  obtain ⟨queue, hpop, hholds⟩ := h.holds.lockedPop_ready hready
  have hlen : (msgs.take k).length = k := by
    rw [List.length_take]
    omega
  refine ⟨{ w with queue := queue, received := none }, (msgs.take k).map .delivered, msgs.drop k,
    ?_, hholds, ?_, ?_, nofun⟩
  · have hpop : w.queue.lockedPop (.many k) false = .ok (.done (queue, msgs.take k)) := hpop
    simp only [AwakerWorld.exec, hk, hpop, hlen, if_true]
  · rw [postedMsgs_append, deliveredMsgs_append, postedMsgs_delivered, deliveredMsgs_delivered,
      h.fifo, List.append_nil, List.append_assoc, List.take_append_drop]
  · show (msgs.drop k).length = w.bytes + 0 + w.posting.countP id
    rw [List.length_drop]
    omega

/-- The step lemma. -/
theorem exec (h : w.Inv l msgs) {a : AwakerAct μ} (hs : w.exec a = some (w', ev)) :
    ∃ msgs', w'.Inv (l ++ ev) msgs' := by
  have hcount := h.count
  cases a with
  | push sender msg =>
    obtain ⟨hidle, hs⟩ := Option.ite_none_right_eq_some.mp hs
    have hset := countP_set_add (p := id) (b := true) hidle
    cases hfull : w.queue.coll.isFull with
    | true =>
      -- the queue is full: the sender waits
      rw [h.holds.lockedPush_full hfull] at hs
      cases hs
    | false =>
      obtain ⟨queue, hpush, hholds⟩ := h.holds.lockedPush_room hfull (sender, msg)
      rw [hpush] at hs
      cases hs
      -- the message counts for its sender until the byte is sent
      refine ⟨msgs ++ [(sender, msg)], hholds, ?_, ?_, h.received⟩
      · rw [postedMsgs_append, deliveredMsgs_append, h.fifo]
        simp [postedMsgs, deliveredMsgs, PostEvent.posted?, PostEvent.delivered?]
      · show (msgs ++ [(sender, msg)]).length =
          w.bytes + w.received.getD 0 + (w.posting.set sender true).countP id
        rw [List.length_append, List.length_singleton]
        simp only [id_eq, Bool.toNat_true, Bool.toNat_false] at hset
        omega
  | sendByte sender =>
    obtain ⟨hpushed, hs⟩ := Option.ite_none_right_eq_some.mp hs
    cases hs
    have hset := countP_set_add (p := id) (b := false) hpushed
    refine ⟨msgs, h.holds, ?_, ?_, h.received⟩
    · rw [List.append_nil]
      exact h.fifo
    · show msgs.length = w.bytes + 1 + w.received.getD 0 + (w.posting.set sender false).countP id
      simp only [id_eq, Bool.toNat_true, Bool.toNat_false] at hset
      omega
  | receive count =>
    obtain ⟨⟨hidle, hone, -, hle⟩, hs⟩ := Option.ite_none_right_eq_some.mp hs
    cases hs
    -- the bytes read become the number of messages to take
    refine ⟨msgs, h.holds, ?_, ?_, ?_⟩
    · rw [List.append_nil]
      exact h.fifo
    · rw [hidle] at hcount
      show msgs.length = w.bytes - count + count + w.posting.countP id
      simp only [Option.getD_none] at hcount
      omega
    · intro k hk
      cases hk
      exact hone
  | pop =>
    cases hk : w.received with
    | none =>
      simp only [AwakerWorld.exec, hk] at hs
      cases hs
    | some k =>
      obtain ⟨w₁, ev₁, msgs', hpop, hinv⟩ := h.pop hk
      cases hs.symm.trans hpop
      exact ⟨msgs', hinv⟩

/-- The run lemma. -/
theorem run {n : Nat} {as : List (AwakerAct μ)}
    (hrun : (awaker μ).run (AwakerWorld.initial μ n) as = some w) :
    ∃ msgs, w.Inv ((awaker μ).trace (fun w a => a.events w) (AwakerWorld.initial μ n) as) msgs := by
  apply (awaker μ).run_exec (G := fun _ _ => True) (J := fun w l => ∃ msgs, w.Inv l msgs)
    (fun _ _ => rfl) (fun _ _ => rfl) ?_ ⟨[], Inv.initial n⟩
    (Machine.obeys_of_forall _ (fun _ _ => trivial) _ _) hrun
  rintro w a w' l ev ⟨msgs, h⟩ - hs
  exact h.exec hs

end Inv

end AwakerWorld

/-- For any number of threads that post and every interleaving of their steps with those of the
reader: the reader never blocks nor fails its assertion, and the messages are delivered once and in
order. -/
theorem awaker_protocol (μ : Type) (n : Nat) (as : List (AwakerAct μ)) (w : AwakerWorld μ)
    (hrun : (awaker μ).run (AwakerWorld.initial μ n) as = some w) :
    AwakerCorrect w ((awaker μ).trace (fun w a => a.events w) (AwakerWorld.initial μ n) as) := by
  obtain ⟨msgs, h⟩ := AwakerWorld.Inv.run hrun
  have hcount := h.count
  refine ⟨?_, ?_, ⟨msgs, h.holds, h.fifo⟩, ?_, ?_⟩
  · rw [h.holds.size]
    omega
  · intro count hk
    obtain ⟨w', ev, msgs', hpop, -⟩ := h.pop hk
    simp [awaker, hpop]
  · intro s
    rw [h.fifo, List.filter_append]
    exact List.prefix_append ..
  · intro hbytes hreceived hposting
    have hzero : w.posting.countP id = 0 := by
      apply List.countP_eq_zero.mpr
      intro b hb hid
      exact hposting (hid ▸ hb)
    have hnil : msgs = [] := by
      apply List.length_eq_zero_iff.mp
      rw [hcount, hbytes, hreceived, hzero]
      rfl
    rw [h.fifo, hnil, List.append_nil]

/-- Two threads post; the byte of the second one arrives first, and brings the message of the first
one. -/
def crossedBytes : List (AwakerAct Nat) :=
  [.push 0 10, .push 1 20, .sendByte 1, .receive 1, .pop, .sendByte 0, .receive 1, .pop]

theorem awaker_protocol_crossed :
    ∃ w, (awaker Nat).run (AwakerWorld.initial Nat 2) crossedBytes = some w ∧
      AwakerCorrect w
        ((awaker Nat).trace (fun w a => a.events w) (AwakerWorld.initial Nat 2) crossedBytes) := by
  obtain ⟨w, hrun⟩ : ∃ w, (awaker Nat).run (AwakerWorld.initial Nat 2) crossedBytes = some w :=
    Option.isSome_iff_exists.mp (by decide +kernel)
  exact ⟨w, hrun, awaker_protocol Nat 2 crossedBytes w hrun⟩

end NodeCpp
