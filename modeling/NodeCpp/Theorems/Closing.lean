import NodeCpp.Loop.Runs

/-!
# Closing states are absorbing

Over runs of the whole loop: once a socket is `Closing`, `ErrorClosing` or `Closed`,
it stays in that state or becomes `Closed`, and at most one close event for it is in
`pendingCloseEvents` -- as long as `end()` and the code behind the `end` handlers are
kept away from closing sockets (`Op.KeepsClosing`). They assign `LocalEnding` or
`LocalEnded` whatever the state is, after which the next close queues a second event.
-/

namespace NodeCpp

/-- The socket an operation calls, with the call. -/
def Op.target (r : Registry) : Op → Option (SocketObj × SockCall)
  | .sock o c => (r.liveSocket o).map fun obj => (obj, c)
  | .entrySock i c => (r.client i).toOption.map fun p => (p.2, c)
  | _ => none

/-- On a socket that is closing only calls are made that keep it so. -/
def Op.KeepsClosing (r : Registry) (op : Op) : Prop :=
  ∀ p ∈ op.target r, p.1.data.state.closing → p.2.keepsClosing p.1.data

instance (r : Registry) (op : Op) : Decidable (op.KeepsClosing r) :=
  inferInstanceAs (Decidable (∀ p ∈ op.target r, _))

theorem Op.abs_eq_move {r : Registry} {op : Op} {e : Emitter} {st : SockState}
    {evs : List Pending} (h : op.abs r = .move e st evs) :
    ∃ o obj c idx, op.target r = some (obj, c) ∧ r.sockets[o]? = some obj ∧
      ViewOp.move e st evs = Registry.absSock o obj idx c := by
  cases op
  case sock o c =>
    simp only [abs] at h
    split at h
    · rename_i obj hobj
      exact ⟨o, obj, c, _, by simp [target, hobj], (Registry.liveSocket_eq_some hobj).1, h.symm⟩
    · cases h
  case entrySock i c =>
    simp only [abs] at h
    split at h
    · rename_i o obj hclient
      obtain ⟨-, -, -, -, hobj⟩ := Registry.client_eq_ok hclient
      exact ⟨o, obj, c, _, by simp [target, hclient, Except.toOption],
        (Registry.liveSocket_eq_some hobj).1, h.symm⟩
    · cases h
  all_goals
    simp only [abs] at h
    repeat' split at h
    all_goals cases h

namespace View

/-- A step that leaves the closing sockets closing. -/
def Settles (v : View) (op : ViewOp) : Prop :=
  ∀ e st evs, op = .move e st evs → (v.state e).closing →
    (st = v.state e ∨ st = .Closed) ∧ evs = []

def closeCount (v : View) (e : Emitter) : Nat :=
  (v.queue .close).events.countP fun ev => decide (ev.owner = e)

/-- One close event is queued at most, and only for a socket that is closing. -/
def ClosesOnce (v : View) : Prop :=
  ∀ e, v.closeCount e ≤ 1 ∧ ((v.state e).closing = false → v.closeCount e = 0)

def Absorbs (v v' : View) : Prop :=
  ∀ e, (v.state e).closing → v'.state e = v.state e ∨ v'.state e = .Closed

variable {v v' : View}

theorem closeCount_le {op : ViewOp} (hstep : v.Step op v') (e : Emitter) :
    v'.closeCount e ≤
      v.closeCount e + (op.pushed .close).countP fun ev => decide (ev.owner = e) := by
  rw [closeCount, closeCount, ← List.countP_append]
  exact (hstep.events_sublist .close).countP_le

/-- The step lemma of `ClosesOnce`. -/
theorem ClosesOnce.step (h : v.ClosesOnce) {op : ViewOp} (hstep : v.Step op v')
    (hsettles : v.Settles op) : v'.ClosesOnce := by
  intro e
  obtain ⟨hone, hnone⟩ := h e
  have hle := closeCount_le hstep e
  obtain ⟨hpushed, hstate⟩ | ⟨e', st, evs, rfl, hmove, howner, hstate⟩ := hstep.state_cases
  · rw [hpushed, List.countP_nil] at hle
    rw [hstate]
    exact ⟨by omega, fun hopen => by have := hnone hopen; omega⟩
  · replace hle : v'.closeCount e ≤ v.closeCount e +
      evs.countP fun ev => decide (ev.owner = e) := hle
    rw [hstate, Function.update_apply]
    by_cases he : e = e'
    · subst he
      rw [if_pos rfl]
      have hlen : (evs.countP fun ev => decide (ev.owner = e)) ≤ evs.length := List.countP_le_length
      cases hclosing : (v.state e).closing with
      | true =>
        -- no second event, and no way back
        obtain ⟨hst, rfl⟩ := hsettles e st evs rfl hclosing
        refine ⟨Nat.le_trans hle hone, fun hopen => ?_⟩
        rcases hst with rfl | rfl
        · rw [hclosing] at hopen
          cases hopen
        · cases hopen
      | false =>
        have hzero := hnone hclosing
        rcases hmove.events with hevs | ⟨hevs, hst⟩
        · rw [List.map_eq_nil_iff.mp hevs] at hle
          rw [hzero] at hle
          exact ⟨Nat.le_trans hle (Nat.zero_le 1), fun _ => Nat.le_zero.mp hle⟩
        · rw [List.length_map] at hevs
          refine ⟨by omega, fun hopen => ?_⟩
          rw [hst] at hopen
          cases hopen
    · rw [if_neg he]
      have hother : (evs.countP fun ev => decide (ev.owner = e)) = 0 := by
        refine List.countP_eq_zero.mpr fun ev hev => ?_
        rw [howner ev hev]
        simpa using Ne.symm he
      exact ⟨by omega, fun hopen => by have := hnone hopen; omega⟩

theorem Absorbs.refl (v : View) : v.Absorbs v := fun _ _ => .inl rfl

theorem Absorbs.trans {v₁ v₂ v₃ : View} (h₁ : v₁.Absorbs v₂) (h₂ : v₂.Absorbs v₃) :
    v₁.Absorbs v₃ := by
  intro e hclosing
  rcases h₁ e hclosing with heq | hclosed
  · rw [← heq] at hclosing ⊢
    exact h₂ e hclosing
  · rcases h₂ e (by rw [hclosed]; rfl) with heq | hclosed'
    · exact .inr (heq.trans hclosed)
    · exact .inr hclosed'

/-- The step lemma of `Absorbs`. -/
theorem Absorbs.step {op : ViewOp} (hstep : v.Step op v') (hsettles : v.Settles op) :
    v.Absorbs v' := by
  intro e hclosing
  obtain ⟨-, hstate⟩ | ⟨e', st, evs, rfl, -, -, hstate⟩ := hstep.state_cases
  · exact .inl (congrFun hstate e)
  · rw [hstate, Function.update_apply]
    split
    · subst e
      exact (hsettles e' st evs rfl hclosing).1
    · exact .inl rfl

end View

/-- What the condition on the calls says about the step an operation takes. -/
theorem Op.KeepsClosing.settles {r : Registry} {op : Op} (h : op.KeepsClosing r) :
    r.view.Settles (op.abs r) := by
  intro e st evs hop hclosing
  obtain ⟨o, obj, c, idx, htarget, hget, heq⟩ := abs_eq_move hop
  cases heq
  have hstate : r.view.state (.client o) = obj.data.state := by simp [Registry.view, hget]
  rw [hstate] at hclosing ⊢
  have hkeeps := h _ htarget hclosing
  obtain ⟨hrests, hfx⟩ :=
    ((SockCall.run_moves obj.data c).closing hclosing).resolve_left (by simp [hkeeps])
  exact ⟨hrests, by rw [hfx]; rfl⟩

/-- Closing states are absorbing: along every run whose calls keep away from closing sockets, a
socket that is closing stays in its state or becomes `Closed`, and at no time are two close events
queued for one socket. -/
theorem closing_absorbing {as bs : List Action} {w w' : Ctl × Registry}
    (hobeys : Loop.Obeys (fun r op => op.KeepsClosing r) Loop.init (as ++ bs))
    (hrun : Loop.run Loop.init as = some w) (hrun' : Loop.run w bs = some w') :
    (∀ (o : Nat) obj, w.2.sockets[o]? = some obj → obj.data.state.closing →
      ∃ obj', w'.2.sockets[o]? = some obj' ∧
        (obj'.data.state = obj.data.state ∨ obj'.data.state = .Closed)) ∧
      ∀ o, ((w'.2.queue .close).events.countP fun ev => decide (ev.owner = .client o)) ≤ 1 := by
  obtain ⟨hobeys₁, hobeys₂⟩ := (runStandardLoop.machine.obeys_append hrun).mp hobeys
  have hstep : ∀ r op v', r.Sound → r.view.ClosesOnce → Op.KeepsClosing r op →
      r.view.Step (op.abs r) v' → v'.ClosesOnce :=
    fun r op v' _ hJ hG hstep => hJ.step hstep hG.settles
  have hinit : Loop.init.2.view.ClosesOnce := fun e => ⟨Nat.zero_le 1, fun _ => rfl⟩
  obtain ⟨hsound, honce⟩ := Loop.view_invariant hstep .init hinit hobeys₁ hrun
  obtain ⟨-, honce'⟩ := Loop.view_invariant hstep hsound honce hobeys₂ hrun'
  have habsorbs : w.2.view.Absorbs w'.2.view :=
    Loop.view_relation View.Absorbs.refl (fun _ _ _ => .trans)
      (fun r op v' _ hG hstep => .step hstep hG.settles) hsound hobeys₂ hrun'
  refine ⟨fun o obj hobj hclosing => ?_, fun o => (honce' (.client o)).1⟩
  have hstate : w.2.view.state (.client o) = obj.data.state := by simp [Registry.view, hobj]
  have hafter := habsorbs (.client o) (by rw [hstate]; exact hclosing)
  rw [hstate] at hafter
  cases hobj' : w'.2.sockets[o]? with
  | some obj' => exact ⟨obj', rfl, by simpa [Registry.view, hobj'] using hafter⟩
  | none =>
    have hnew : w'.2.view.state (.client o) = .Uninitialized := by simp [Registry.view, hobj']
    rw [hnew] at hafter
    rcases hafter with heq | heq
    · rw [← heq] at hclosing
      cases hclosing
    · cases heq

/-- A socket that is destroyed and then written to and destroyed again. -/
theorem closing_absorbing_destroy :
    ∃ w w', Loop.run Loop.init [.call (.createSocket 5), .call (.connect 0),
        .call (.sock 0 .destroy)] = some w ∧
      Loop.run w [.call (.sock 0 (.write [1] .wouldBlock)), .call (.sock 0 .destroy)] = some w' ∧
      (∀ (o : Nat) obj, w.2.sockets[o]? = some obj → obj.data.state.closing →
        ∃ obj', w'.2.sockets[o]? = some obj' ∧
          (obj'.data.state = obj.data.state ∨ obj'.data.state = .Closed)) ∧
      ∀ o, ((w'.2.queue .close).events.countP fun ev => decide (ev.owner = .client o)) ≤ 1 := by
  obtain ⟨w, hw⟩ : ∃ w, Loop.run Loop.init [.call (.createSocket 5), .call (.connect 0),
      .call (.sock 0 .destroy)] = some w := ⟨_, rfl⟩
  obtain ⟨w', hw'⟩ : ∃ w', Loop.run w [.call (.sock 0 (.write [1] .wouldBlock)),
      .call (.sock 0 .destroy)] = some w' := by
    cases hw
    exact ⟨_, rfl⟩
  exact ⟨w, w', hw, hw', closing_absorbing (by decide) hw hw'⟩

/-- `end()` on a destroyed socket: it is `LocalEnded` again, and the next `destroy()` queues a
second close event. -/
theorem closing_reopened :
    ∃ w w', Loop.run Loop.init [.call (.createSocket 5), .call (.connect 0),
        .call (.sock 0 .destroy)] = some w ∧
      (∃ obj, w.2.sockets[0]? = some obj ∧ obj.data.state = .Closing) ∧
      Loop.run w [.call (.sock 0 .end_)] = some w' ∧
      (∃ obj, w'.2.sockets[0]? = some obj ∧ obj.data.state = .LocalEnded) ∧
      ∃ w'', Loop.run w' [.call (.sock 0 .destroy)] = some w'' ∧
        ((w''.2.queue .close).events.countP fun ev => decide (ev.owner = .client 0)) = 2 :=
  ⟨_, _, rfl, ⟨_, rfl, rfl⟩, rfl, ⟨_, rfl, rfl⟩, _, rfl, rfl⟩

end NodeCpp
