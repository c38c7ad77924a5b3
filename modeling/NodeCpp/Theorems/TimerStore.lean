import NodeCpp.Timer.Api

/-!
# The timer store

Whatever the user and the loop do, the pairs of `nextTimeouts` are exactly those of
the active timers, and no assertion fails. The ids are counted in 64 bits: as long as
they have not all been used, no id lies above `lastId`, and an entry goes as soon as
it is neither active nor held.
-/

namespace NodeCpp

def TimerAct.sets : TimerAct → Bool
  | .setTimeout _ _ => true
  | _ => false

namespace TimerWorld

variable {s s' : TimerWorld} {a : TimerAct} {acts : List TimerAct}

/-! ## Ids and handles -/

def HasIds (s : TimerWorld) (a : TimerAct) : Prop :=
  a.sets → s.manager.lastId.toNat + 1 < 2 ^ 64

/-- Ids count up from 1, no two handles hold the same, and an entry whose handle is gone is
active. -/
structure Owned (s : TimerWorld) : Prop where
  nodup : s.handles.Nodup
  issued : ∀ id ∈ s.handles, id ≠ 0 ∧ id.toNat ≤ s.manager.lastId.toNat
  below : ∀ id e, s.manager.timers id = some e → id ≠ 0 ∧ id.toNat ≤ s.manager.lastId.toNat
  held : ∀ id e, s.manager.timers id = some e → id ∈ s.handles → e.handleDestroyed = false
  kept : ∀ id e, s.manager.timers id = some e → e.active = false → e.handleDestroyed = false
  temporary : ∀ id e, s.temporary = some id → s.manager.timers id = some e → e.active = false

theorem Owned.init : Owned {} where
  nodup := .nil
  issued _ h := nomatch h
  below _ _ h := nomatch h
  held _ _ h := nomatch h
  kept _ _ h := nomatch h
  temporary _ _ h := nomatch h

theorem toNat_succ {x : UInt64} (h : x.toNat + 1 < 2 ^ 64) : (x + 1).toNat = x.toNat + 1 := by
  rw [UInt64.toNat_add]
  exact Nat.mod_eq_of_lt h

/-- As long as there are ids left, the next one is free. -/
theorem Owned.free (h : s.Owned) (hids : s.manager.lastId.toNat + 1 < 2 ^ 64) :
    s.manager.timers (s.manager.lastId + 1) = none := by
  cases he : s.manager.timers (s.manager.lastId + 1) with
  | none => rfl
  | some e =>
    have hle := (h.below _ e he).2
    rw [toNat_succ hids] at hle
    omega

theorem Steps.lastId_eq (hsteps : Steps s a s') :
    s'.manager.lastId = if a.sets then s.manager.lastId + 1 else s.manager.lastId := by
  rw [hsteps.lastId]
  have hdestruct : ∀ id : UInt64,
      ((if id = 0 then none else some (TimeoutOp.appTimeoutDestructor id)).elim s.manager.lastId
        (TimeoutOp.lastId s.manager.lastId)) = s.manager.lastId := by
    intro id
    split <;> rfl
  cases a with
  | destructTimeout i => exact hdestruct i
  | destructTemporary =>
    simp only [TimerAct.op]
    cases s.temporary with
    | none => rfl
    | some i => exact hdestruct i
  | _ => rfl

/-- What an operation, if there is one, can leave of the entry `x` of the timer `id`. -/
inductive Leaves (lastId id : UInt64) (x : Option TimeoutEntry) :
    Option TimeoutOp → TimeoutEntry → Prop
  | same {op : Option TimeoutOp} {e : TimeoutEntry} (hop : op ≠ some (.appClearTimeout id))
      (hx : x = some e) : Leaves lastId id x op e
  | set {ms : Int32} {now : UInt64} {e : TimeoutEntry} (hid : id = lastId + 1)
      (hheld : e.handleDestroyed = false) : Leaves lastId id x (some (.appSetTimeout ms now)) e
  | cleared {e : TimeoutEntry} (hx : x = some e) :
      Leaves lastId id x (some (.appClearTimeout id)) e.deactivate
  | refreshed {now : UInt64} {e : TimeoutEntry} (hx : x = some e) :
      Leaves lastId id x (some (.appRefresh id now)) (e.schedule now)
  | released {e : TimeoutEntry} (hx : x = some e) (hactive : e.active) :
      Leaves lastId id x (some (.appTimeoutDestructor id)) { e with handleDestroyed := true }
  | fired {now : UInt64} {e : TimeoutEntry} (hx : x = some e) (hheld : e.handleDestroyed = false) :
      Leaves lastId id x (some (.infraTimeoutEvents now)) e.deactivate

theorem Leaves.of_entry {op : TimeoutOp} {lastId id : UInt64} {x : Option TimeoutEntry}
    {e : TimeoutEntry} (he : op.entry lastId id x = some e) : Leaves lastId id x (some op) e := by
  cases op with
  | appSetTimeout ms now =>
    cases x with
    | some e₀ => exact .same (by simp) he
    | none =>
      obtain ⟨hid, heq⟩ := Option.ite_none_right_eq_some.mp he
      cases heq
      exact .set hid rfl
  | appClearTimeout i =>
    simp only [TimeoutOp.entry] at he
    split at he
    · rename_i hi
      obtain ⟨e₀, hx, rfl⟩ := Option.map_eq_some_iff.mp he
      exact hi ▸ .cleared hx
    · rename_i hi
      refine .same ?_ he
      rintro ⟨⟩
      exact hi rfl
  | appRefresh i now =>
    simp only [TimeoutOp.entry] at he
    split at he
    · rename_i hi
      obtain ⟨e₀, hx, rfl⟩ := Option.map_eq_some_iff.mp he
      exact hi ▸ .refreshed hx
    · exact .same (by simp) he
  | appTimeoutDestructor i =>
    simp only [TimeoutOp.entry] at he
    split at he
    · rename_i hi
      obtain ⟨e₀, hx, hrelease⟩ := Option.bind_eq_some_iff.mp he
      obtain ⟨hactive, heq⟩ := Option.ite_none_right_eq_some.mp hrelease
      cases heq
      exact hi ▸ .released hx hactive
    · exact .same (by simp) he
  | infraTimeoutEvents now =>
    obtain ⟨e₀, hx, he⟩ := Option.bind_eq_some_iff.mp he
    split at he
    · obtain ⟨hheld, heq⟩ := Option.ite_none_left_eq_some.mp he
      cases heq
      exact .fired hx (by simpa using hheld)
    · exact .same (by simp) (hx.trans he)

theorem Steps.leaves (hsteps : Steps s a s') {id : UInt64} {e : TimeoutEntry}
    (he : s'.manager.timers id = some e) :
    Leaves s.manager.lastId id (s.manager.timers id) (a.op s) e := by
  rw [hsteps.entry] at he
  cases hop : a.op s with
  | none =>
    rw [hop] at he
    exact .same nofun he
  | some op =>
    rw [hop] at he
    exact .of_entry he

theorem Owned.mem_handles (h : s.Owned) (hids : s.HasIds a) (hsteps : Steps s a s') {id : UInt64}
    (hid : id ∈ s'.handles) : id ∈ s.handles ∨ (a.sets ∧ id = s.manager.lastId + 1) := by
  rw [hsteps.handles] at hid
  cases a with
  | setTimeout ms now =>
    simp only [TimerAct.handles, h.free (hids rfl), Option.isNone_none, if_true] at hid
    rcases List.mem_cons.mp hid with rfl | hid
    · exact .inr ⟨rfl, rfl⟩
    · exact .inl hid
  | destructTimeout i => exact .inl (List.mem_of_mem_erase hid)
  | _ => exact .inl hid

theorem Owned.handles_nodup (h : s.Owned) (hids : s.HasIds a) (hsteps : Steps s a s') :
    s'.handles.Nodup := by
  rw [hsteps.handles]
  cases a with
  | setTimeout ms now =>
    simp only [TimerAct.handles, h.free (hids rfl), Option.isNone_none, if_true]
    refine List.nodup_cons.mpr ⟨fun hmem => ?_, h.nodup⟩
    have hle := (h.issued _ hmem).2
    rw [toNat_succ (hids rfl)] at hle
    omega
  | destructTimeout i => exact h.nodup.erase i
  | _ => exact h.nodup

theorem Owned.entry (h : s.Owned) (hids : s.HasIds a) (ha : s.enabled a) (hsteps : Steps s a s')
    {id : UInt64} {e : TimeoutEntry} (he : s'.manager.timers id = some e) :
    (id ∈ s'.handles → e.handleDestroyed = false) ∧
      (e.active = false → e.handleDestroyed = false) := by
  have hleaves := hsteps.leaves he
  generalize hop : a.op s = op at hleaves
  cases hleaves with
  | same _ hx =>
    refine ⟨fun hid => ?_, h.kept id e hx⟩
    rcases h.mem_handles hids hsteps hid with hid | ⟨hsets, rfl⟩
    · exact h.held id e hx hid
    · cases (h.free (hids hsets)).symm.trans hx
  | set _ hheld => exact ⟨fun _ => hheld, fun _ => hheld⟩
  | cleared hx | refreshed hx =>
    -- a handle the user has
    cases TimerAct.op_eq_some hop
    simp only [enabled, Bool.and_eq_true, decide_eq_true_eq] at ha
    have hheld := h.held id _ hx ha.2
    exact ⟨fun _ => hheld, fun _ => hheld⟩
  | released hx hactive =>
    refine ⟨fun hid => ?_, fun hinactive => absurd hactive (by simpa using hinactive)⟩
    rcases TimerAct.op_eq_some hop with rfl | ⟨rfl, htemp⟩
    · -- this was the last handle with the id
      rw [hsteps.handles] at hid
      exact absurd hid h.nodup.not_mem_erase
    · rw [h.temporary id _ htemp hx] at hactive
      cases hactive
  | fired _ hheld => exact ⟨fun _ => hheld, fun _ => hheld⟩

/-- The step lemma. -/
theorem Owned.step (h : s.Owned) (hids : s.HasIds a) (ha : s.enabled a) (hsteps : Steps s a s') :
    s'.Owned := by
  have hnew : a.sets → s.manager.lastId + 1 ≠ 0 ∧
      (s.manager.lastId + 1).toNat ≤ s'.manager.lastId.toNat := by
    intro hsets
    rw [hsteps.lastId_eq, if_pos hsets]
    refine ⟨fun hzero => ?_, Nat.le_refl _⟩
    have hsucc := toNat_succ (hids hsets)
    rw [hzero] at hsucc
    cases hsucc
  have hlast : s.manager.lastId.toNat ≤ s'.manager.lastId.toNat := by
    rw [hsteps.lastId_eq]
    split
    · rename_i hsets
      rw [toNat_succ (hids hsets)]
      omega
    · exact Nat.le_refl _
  refine ⟨h.handles_nodup hids hsteps, fun id hid => ?_, fun id e he => ?_,
    fun id e he => (h.entry hids ha hsteps he).1, fun id e he => (h.entry hids ha hsteps he).2,
    fun id e htemp he => ?_⟩
  · rcases h.mem_handles hids hsteps hid with hid | ⟨hsets, rfl⟩
    · exact ⟨(h.issued id hid).1, Nat.le_trans (h.issued id hid).2 hlast⟩
    · exact hnew hsets
  · have hbelow : ∀ e₀, s.manager.timers id = some e₀ →
        id ≠ 0 ∧ id.toNat ≤ s'.manager.lastId.toNat := fun e₀ he₀ =>
      ⟨(h.below id e₀ he₀).1, Nat.le_trans (h.below id e₀ he₀).2 hlast⟩
    have hleaves := hsteps.leaves he
    generalize hop : a.op s = op at hleaves
    cases hleaves with
    | set hid =>
      cases TimerAct.op_eq_some hop
      exact hid ▸ hnew rfl
    | same _ hx | cleared hx | refreshed hx | released hx | fired hx => exact hbelow _ hx
  · rw [hsteps.temporary] at htemp
    cases a with
    | clearTimeout i =>
      cases htemp
      have hleaves : Leaves _ id _ (some (.appClearTimeout id)) e := hsteps.leaves he
      cases hleaves with
      | same hop => exact absurd rfl hop
      | cleared => rfl
    | _ => cases htemp

theorem obeys_hasIds (h : s.manager.Exact)
    (hcount : s.manager.lastId.toNat + acts.countP TimerAct.sets < 2 ^ 64) :
    timerWorld.obeys HasIds s acts := by
  induction acts generalizing s with
  | nil => trivial
  | cons a acts ih =>
    rw [List.countP_cons] at hcount
    refine ⟨fun hsets => ?_, fun s' hstep => ?_⟩
    · rw [if_pos hsets] at hcount
      omega
    · obtain ⟨-, hsteps⟩ := step_eq_some h hstep
      apply ih hsteps.exact
      rw [hsteps.lastId_eq]
      split at hcount
      · rename_i hsets
        rw [if_pos hsets, toNat_succ (by omega)]
        omega
      · rename_i hsets
        rw [if_neg hsets]
        omega

/-- The run lemma for ids and handles. -/
theorem owned_run (hcount : acts.countP TimerAct.sets < 2 ^ 64)
    (hrun : timerWorld.run {} acts = some s) : s.Owned := by
  have hinv : s.manager.Exact ∧ s.Owned := by
    refine timerWorld.run_invariant (G := HasIds) (J := fun s => s.manager.Exact ∧ s.Owned) ?_
      ⟨.init, .init⟩ (obeys_hasIds .init (by simpa using hcount)) hrun
    rintro s a s' ⟨hexact, howned⟩ hids hstep
    obtain ⟨ha, hsteps⟩ := step_eq_some hexact hstep
    exact ⟨hsteps.exact, howned.step hids ha hsteps⟩
  exact hinv.2

/-! ## Using up the ids -/

/-- With nothing but `setTimeout` every id is given out in turn, and the first timer stays. -/
theorem run_setTimeout (n : Nat) :
    ∃ s, timerWorld.run {} (List.replicate (n + 1) (.setTimeout 1 0)) = some s ∧ s.user ∧
      s.manager.Exact ∧ s.manager.lastId = UInt64.ofNat (n + 1) ∧
      (s.manager.timers 1).isSome := by
  have hstep : ∀ s : TimerWorld, s.user → s.manager.Exact →
      ∃ s', timerWorld.step s (.setTimeout 1 0) = some s' ∧ s'.user ∧ s'.manager.Exact ∧
        s'.manager.lastId = s.manager.lastId + 1 ∧
        ((s.manager.timers 1).isSome ∨ s.manager.lastId = 0 → (s'.manager.timers 1).isSome) := by
    intro s huser hexact
    obtain ⟨s', hs', hsteps⟩ := exec_ok (a := .setTimeout 1 0) hexact huser
    refine ⟨s', ?_, ?_, hsteps.exact, hsteps.lastId, ?_⟩
    · simp only [timerWorld, enabled, huser, if_true, hs']
      rfl
    · have htemp := hsteps.temporary
      have hfiring := hsteps.firing
      simp only [user, htemp, hfiring, TimerAct.temporary,
        TimerAct.firing_setTimeout] at huser ⊢
      simp only [Bool.and_eq_true] at huser
      exact huser.2
    · rw [hsteps.entry]
      show _ → (TimeoutOp.entry s.manager.lastId 1 (.appSetTimeout 1 0) _).isSome
      cases he : s.manager.timers 1 with
      | some e => exact fun _ => rfl
      | none =>
        rintro (hsome | hzero)
        · cases hsome
        · rw [hzero]
          rfl
  induction n with
  | zero =>
    obtain ⟨s, hs, huser, hexact, hlast, hone⟩ := hstep {} rfl .init
    refine ⟨s, ?_, huser, hexact, hlast, hone (.inr rfl)⟩
    simp only [Nat.zero_add, List.replicate_one, Lib.Machine.run, hs, Option.bind_some]
  | succ n ih =>
    obtain ⟨s, hs, huser, hexact, hlast, hone⟩ := ih
    obtain ⟨s', hs', huser', hexact', hlast', hone'⟩ := hstep s huser hexact
    refine ⟨s', ?_, huser', hexact', ?_, hone' (.inl hone)⟩
    · rw [List.replicate_succ', timerWorld.run_append, hs]
      simp only [Option.bind_some, Lib.Machine.run, hs']
    · rw [hlast', hlast, UInt64.ofNat_add (n + 1) 1]
      rfl

end TimerWorld

/-- The store of timers is exact in every state that is reached, and no assertion fails there;
while there are ids left, no id is above `lastId`, and no entry is inactive without a handle. -/
theorem timer_store {acts : List TimerAct} {s : TimerWorld}
    (hrun : timerWorld.run {} acts = some s) :
    (∀ p, p ∈ s.manager.nextTimeouts ↔
      ∃ e, s.manager.timers p.2 = some e ∧ e.active ∧ e.nextTimeout = p.1) ∧
    s.manager.nextTimeouts.Nodup ∧
    (∀ a, s.enabled a → ∃ s', s.exec a = .ok s') ∧
    (acts.countP TimerAct.sets < 2 ^ 64 → ∀ id e, s.manager.timers id = some e →
      id ≤ s.manager.lastId ∧ ¬(e.active = false ∧ e.handleDestroyed = true)) := by
  have hexact := TimerWorld.exact_run hrun
  refine ⟨hexact.mem_iff, .of_map _ hexact.paired.nodup, fun a ha => ?_, fun hcount id e he => ?_⟩
  · obtain ⟨s', hs', -⟩ := TimerWorld.exec_ok hexact ha
    exact ⟨s', hs'⟩
  · have howned := TimerWorld.owned_run hcount hrun
    refine ⟨UInt64.le_iff_toNat_le.mpr (howned.below id e he).2, ?_⟩
    rintro ⟨hinactive, hdestroyed⟩
    rw [howned.kept id e he hinactive] at hdestroyed
    cases hdestroyed

/-- A run with every kind of step. -/
def storeRun : List TimerAct :=
  [.setTimeout 5 0, .setTimeout 5 0, .setTimeout 9 0, .destructTimeout 2, .infraTimeoutEvents 5000,
    .next, .refreshTimeout 1 6000, .ret, .next, .clearTimeout 3, .destructTemporary, .ret, .next]

theorem timer_store_example : ∃ s, timerWorld.run {} storeRun = some s ∧
    s.manager.nextTimeouts = [(11000, 1)] ∧
    ∀ a, s.enabled a → ∃ s', s.exec a = .ok s' := by
  obtain ⟨s, hs, hnext⟩ : ∃ s, timerWorld.run {} storeRun = some s ∧
    s.manager.nextTimeouts = [(11000, 1)] := by decide +kernel
  exact ⟨s, hs, hnext, (timer_store hs).2.2.1⟩

/-- After 2^64 timers the first one has an id above `lastId`. -/
theorem timer_ids_wrap : ∃ acts s, timerWorld.run {} acts = some s ∧
    ∃ id e, s.manager.timers id = some e ∧ ¬id ≤ s.manager.lastId := by
  obtain ⟨s, hs, -, -, hlast, hone⟩ := TimerWorld.run_setTimeout (2 ^ 64 - 1)
  obtain ⟨e, he⟩ := Option.isSome_iff_exists.mp hone
  refine ⟨_, s, hs, 1, e, he, ?_⟩
  have hzero : s.manager.lastId = 0 := by
    rw [hlast]
    decide
  rw [hzero]
  decide

end NodeCpp
