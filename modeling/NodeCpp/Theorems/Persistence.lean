import NodeCpp.Theorems.SlotRelease

/-!
# Whether the connection is kept

A response with the header `Connection: close` is to end the connection when it has been written,
and any other one is to leave it to the next request.

`serializeHeaders` calls `parseConnStatus` for that. It is a member of `HttpMessageBase`: it looks
into the header of the base class, to which nothing is ever added, and it sets the `connStatus` of
the base class, which `end` does not read. The `connStatus` of the response is set when the response
is made, and never again.

* `exec_connStatus` -- no step of a connection changes the `connStatus` of its response.
* `effects_eq` -- so every `end` releases the slot.
* `connection_persistence_iff` -- that is what is meant exactly if the response does not carry
  `Connection: close`.
-/

namespace NodeCpp

open Lib

/-- What a response asks of its socket. -/
inductive ResponseEffect
  | write (bytes : Str)
  | «end»
  | release (idx : Nat)
  | proceedToNext
  deriving DecidableEq, Repr

def ResponseEffect.isWrite : ResponseEffect → Bool
  | write _ => true
  | _ => false

def connectionKey : Str := chars ['c', 'o', 'n', 'n', 'e', 'c', 't', 'i', 'o', 'n']

/-- A header named `connection` with the given value, both in any letter case. -/
def ConnectionIs (fields : List (Str × Str)) (value : Str) : Prop :=
  ∃ h ∈ fields, makeLower h.1 = connectionKey ∧ makeLower h.2 = value

instance (fields : List (Str × Str)) (value : Str) : Decidable (ConnectionIs fields value) :=
  inferInstanceAs (Decidable (∃ h ∈ fields, _ ∧ _))

def closeValue : Str := chars ['c', 'l', 'o', 's', 'e']

def keepAliveValue : Str := chars ['k', 'e', 'e', 'p', '-', 'a', 'l', 'i', 'v', 'e']

/-- An HTTP/1.1 request without `Connection: close`. The keys of its header are in lower case. -/
def IncomingHttpMessageAtServer.KeepsAlive (m : IncomingHttpMessageAtServer) : Prop :=
  m.version = chars ['1', '.', '1'] ∧
    ∀ value ∈ m.header.find connectionKey, makeLower value ≠ closeValue

namespace HttpServerResponse

/-- The calls of both `end` behind their write. -/
def finishEffects (r : HttpServerResponse) : List ResponseEffect :=
  if r.connStatus ≠ .keepAlive then [.end] else [.release r.base.idx, .proceedToNext]

/-- The calls of `end()` and `end( b )`, when their write succeeds. -/
def endEffects (r : HttpServerResponse) : Option Str → Except Failure (List ResponseEffect)
  | none => do
      let (r, bytes) ← r.endWrites
      let r := if bytes.isSome then r.flushHeadersWritten else r
      .ok (bytes.toList.map .write ++ r.finishEffects)
  | some b => do
      let (r, bytes) ← r.endWithWrites b
      .ok (.write bytes :: r.writeBodyPartWritten.finishEffects)

end HttpServerResponse

namespace ResponseCalls

open HttpServerResponse

def effects (version : Str) (r : HttpServerResponse) (s : ResponseCalls) :
    Except Failure (List ResponseEffect) := do
  let r ← s.heads.foldlM (head version) r
  let (r, _) ← r.flushIf s.flush
  let (r, _) ← r.writeBodyParts s.parts
  r.endEffects s.last

end ResponseCalls

/-- The header that the call adds by `addHeader`. -/
def HeadCall.added? : HeadCall → Option (Str × Str)
  | .addHeader key value => some (key, value)
  | _ => none

def ConnAct.added? (request : Nat) : ConnAct → Option (Str × Str)
  | .head request' call => if request' = request then call.added? else none
  | _ => none

/-- The headers that `addHeader` has given to the response of the request, in the steps before and
in the calls that complete it. -/
def ResponseCalls.carried (before : List ConnAct) (request : Nat) (s : ResponseCalls) :
    HeaderMap :=
  (before.filterMap (ConnAct.added? request) ++ s.heads.filterMap HeadCall.added?).foldl
    (fun header h => HeaderMap.insert h.1 h.2 header) []

/-- What is meant to become of the connection when a response with the given headers is ended:
`calls` are what `end` asks of the socket, and `q'` is what it leaves of the queue `q`. -/
structure Persists (request : IncomingHttpMessageAtServer) (fields : List (Str × Str)) (idx : Nat)
    (q q' : RRQueue 0) (calls : List ResponseEffect) : Prop where
  closed : ConnectionIs fields closeValue →
    ∃ before after, calls = before ++ .end :: after ∧ ∀ c ∈ after, c.isWrite = false
  kept : ConnectionIs fields keepAliveValue ∨
      (∀ h ∈ fields, makeLower h.1 ≠ connectionKey) ∧ request.KeepsAlive →
    .end ∉ calls ∧ .release idx ∈ calls ∧ ∃ more, q.release idx = .ok (q', more)

/-! ## The status of the connection -/

namespace HttpServerResponse

variable {r r' r'' : HttpServerResponse} {q q' : RRQueue 0}

theorem SameSlot.refl (r : HttpServerResponse) : SameSlot r r := ⟨rfl, rfl⟩

theorem SameSlot.trans (h : SameSlot r r') (h' : SameSlot r' r'') : SameSlot r r'' :=
  ⟨h'.idx.trans h.idx, h'.connStatus.trans h.connStatus⟩

theorem heads_same {version : Str} {heads : List HeadCall}
    (h : heads.foldlM (head version) r = .ok r') : SameSlot r r' := by
  induction heads generalizing r with
  | nil =>
    cases h
    exact .refl _
  | cons c heads ih =>
    rw [List.foldlM_cons] at h
    obtain ⟨r₁, hc, h⟩ := bind_eq_ok h
    exact (head_same hc).1.trans (ih h)

theorem flushIf_same {flush : Bool} {bytes : Str} (h : r.flushIf flush = .ok (r', bytes)) :
    SameSlot r r' := by
  unfold flushIf at h
  split at h
  · obtain ⟨⟨r₁, bytes₁⟩, hwrites, h⟩ := bind_eq_ok h
    cases h
    exact (flushHeadersWrites_same hwrites).trans ⟨rfl, rfl⟩
  · cases h
    exact .refl r

theorem writeBodyParts_same {parts : List Str} {bytes : Str}
    (h : r.writeBodyParts parts = .ok (r', bytes)) : SameSlot r r' := by
  induction parts generalizing r bytes with
  | nil =>
    cases h
    exact .refl _
  | cons b parts ih =>
    obtain ⟨⟨r₁, bytes₁⟩, hpart, h⟩ := bind_eq_ok h
    obtain ⟨⟨r₂, bytes₂⟩, hparts, h⟩ := bind_eq_ok h
    cases h
    obtain ⟨⟨r₃, bytes₃⟩, hwrites, hpart⟩ := bind_eq_ok hpart
    cases hpart
    exact ((writeBodyPartWrites_same hwrites).trans (writeBodyPartWritten_same r₃)).trans
      (ih hparts)

theorem endWrites_same {bytes : Option Str} (h : r.endWrites = .ok (r', bytes)) :
    SameSlot r r' := by
  unfold endWrites at h
  split at h
  · obtain ⟨⟨r₁, bytes₁⟩, hwrites, h⟩ := bind_eq_ok h
    cases h
    exact flushHeadersWrites_same hwrites
  · cases h
    exact .refl r

theorem endWithWrites_same {b bytes : Str} (h : r.endWithWrites b = .ok (r', bytes)) :
    SameSlot r r' := by
  by_cases hbody : r.writeStatus = .inBody
  · rw [endWithWrites, if_neg (not_not.mpr hbody)] at h
    exact writeBodyPartWrites_same h
  · by_cases hnot : r.writeStatus = .notyet
    · rw [endWithWrites_eq hnot] at h
      have hsame := writeBodyPartWrites_same h
      exact ⟨hsame.idx, hsame.connStatus⟩
    · rw [endWithWrites, if_pos hbody, if_pos hnot] at h
      cases h

theorem finish_keepAlive {q'' : RRQueue 0} (hk : r.connStatus = .keepAlive)
    (h : r.finish q = .ok (r', q'')) :
    r.finishEffects = [.release r.base.idx, .proceedToNext] ∧
      ∃ more, q.release r.base.idx = .ok (q'', more) := by
  have hnot : ¬r.connStatus ≠ .keepAlive := not_not.mpr hk
  refine ⟨by rw [finishEffects, if_neg hnot], ?_⟩
  rw [finish, if_neg hnot] at h
  obtain ⟨⟨q₁, more⟩, hrelease, h⟩ := bind_eq_ok h
  cases h
  exact ⟨more, hrelease⟩

theorem endCall_keepAlive {last : Option Str} {bytes : Str} (hk : r.connStatus = .keepAlive)
    (h : r.endCall q last = .ok (r', q', bytes)) :
    ∃ writes, r.endEffects last = .ok (writes ++ [.release r.base.idx, .proceedToNext]) ∧
      (∀ c ∈ writes, c.isWrite = true) ∧ ∃ more, q.release r.base.idx = .ok (q', more) := by
  cases last with
  | none =>
    obtain ⟨⟨r₁, bytes₁⟩, hwrites, h⟩ := bind_eq_ok h
    obtain ⟨⟨r₂, q₂⟩, hfinish, h⟩ := bind_eq_ok h
    cases h
    have hsame : SameSlot r (if bytes₁.isSome then r₁.flushHeadersWritten else r₁) := by
      refine (endWrites_same hwrites).trans ?_
      split <;> exact ⟨rfl, rfl⟩
    obtain ⟨hcalls, hrelease⟩ := finish_keepAlive (hsame.connStatus.trans hk) hfinish
    rw [hsame.idx] at hcalls hrelease
    refine ⟨bytes₁.toList.map .write, ?_, ?_, hrelease⟩
    · rw [endEffects, hwrites]
      exact congrArg (fun l => Except.ok (bytes₁.toList.map ResponseEffect.write ++ l)) hcalls
    · intro c hc
      obtain ⟨bytes, -, rfl⟩ := List.mem_map.mp hc
      rfl
  | some b =>
    obtain ⟨⟨r₁, bytes⟩, hwrites, h⟩ := bind_eq_ok h
    obtain ⟨⟨r₂, q₂⟩, hfinish, h⟩ := bind_eq_ok h
    cases h
    have hsame := (endWithWrites_same hwrites).trans (writeBodyPartWritten_same r₁)
    obtain ⟨hcalls, hrelease⟩ := finish_keepAlive (hsame.connStatus.trans hk) hfinish
    rw [hsame.idx] at hcalls hrelease
    refine ⟨[.write bytes], ?_, ?_, hrelease⟩
    · rw [endEffects, hwrites]
      exact congrArg (fun l => Except.ok (ResponseEffect.write bytes :: l)) hcalls
    · intro c hc
      rw [List.mem_singleton.mp hc]
      rfl

end HttpServerResponse

open HttpServerResponse in
/-- The response is completed: its `end` writes, releases the slot and goes to the next request. -/
theorem ResponseCalls.effects_eq {version : Str} {r r' : HttpServerResponse} {q q' : RRQueue 0}
    {bytes : Str} {s : ResponseCalls} (hk : r.connStatus = .keepAlive)
    (h : s.run version r q = .ok (r', q', bytes)) :
    ∃ writes, s.effects version r =
        .ok (writes ++ [ResponseEffect.release r.base.idx, .proceedToNext]) ∧
      (∀ c ∈ writes, c.isWrite = true) ∧ ∃ more, q.release r.base.idx = .ok (q', more) := by
  obtain ⟨r₁, hheads, h⟩ := bind_eq_ok h
  obtain ⟨⟨r₂, out⟩, hflush, h⟩ := bind_eq_ok h
  obtain ⟨⟨r₃, body⟩, hparts, h⟩ := bind_eq_ok h
  obtain ⟨⟨r₄, q₄, rest⟩, hend, h⟩ := bind_eq_ok h
  cases h
  have hsame := ((heads_same hheads).trans (flushIf_same hflush)).trans (writeBodyParts_same hparts)
  obtain ⟨writes, hcalls, hwrites, hrelease⟩ :=
    endCall_keepAlive (hsame.connStatus.trans hk) hend
  rw [hsame.idx] at hcalls hrelease
  refine ⟨writes, ?_, hwrites, hrelease⟩
  simp only [effects, hheads, hflush, hparts, hcalls, ok_bind]

/-! ## The runs of a connection -/

namespace HttpConnection

open HttpServerResponse

variable {w w' : HttpConnection} {ev : List SlotEvent} {a : ConnAct}

theorem takeRequest_connStatus (h : w.takeRequest = some (w', ev)) :
    w'.response.connStatus = w.response.connStatus := by
  unfold takeRequest at h
  split at h
  · cases h
  · cases h
    rfl

theorem proceedToNext_connStatus (h : w.proceedToNext = some (w', ev)) :
    w'.response.connStatus = w.response.connStatus := by
  unfold proceedToNext at h
  split at h
  · exact (takeRequest_connStatus h).trans rfl
  · cases h
    rfl

theorem releaseSlot_connStatus {request : Nat} (h : w.releaseSlot request = some (w', ev)) :
    w'.response.connStatus = w.response.connStatus := by
  simp only [releaseSlot] at h
  split at h
  · cases h
  · cases h
    rfl

theorem finish_connStatus {request : Nat} (h : w.finish request = some (w', ev)) :
    w'.response.connStatus = w.response.connStatus := by
  simp only [finish] at h
  split at h
  · cases h
    rfl
  · obtain ⟨⟨w₁, ev₁⟩, hrelease, h⟩ := Option.bind_eq_some_iff.mp h
    obtain ⟨⟨w₂, ev₂⟩, hproceed, h⟩ := Option.bind_eq_some_iff.mp h
    cases h
    exact ((proceedToNext_connStatus hproceed).trans (releaseSlot_connStatus hrelease)).trans rfl

theorem writeFailed_connStatus {write : PendingWrite} (h : w.writeFailed write = some (w', ev)) :
    w'.response.connStatus = w.response.connStatus := by
  obtain ⟨⟨w₁, ev₁⟩, hrelease, h⟩ := Option.bind_eq_some_iff.mp h
  obtain ⟨⟨w₂, ev₂⟩, hproceed, h⟩ := Option.bind_eq_some_iff.mp h
  have hsame := (proceedToNext_connStatus hproceed).trans (releaseSlot_connStatus hrelease)
  have hend : ∀ {w₃ ev₃}, w₂.finish write.request = some (w₃, ev₃) →
      w₃.response.connStatus = w.response.connStatus :=
    fun hfinish => (finish_connStatus hfinish).trans hsame
  cases hkind : write.kind with
  | flushHeaders | writeBodyPart =>
    simp only [hkind] at h
    cases h
    exact hsame
  | endFlush | endPart =>
    simp only [hkind] at h
    split at h
    · cases h
      exact hsame
    · obtain ⟨⟨w₃, ev₃⟩, hfinish, h⟩ := Option.bind_eq_some_iff.mp h
      cases h
      exact hend hfinish

theorem written_connStatus {write : PendingWrite} (h : w.written write = some (w', ev)) :
    w'.response.connStatus = w.response.connStatus := by
  unfold written at h
  split at h
  · cases h
    rfl
  · cases h
    exact (writeBodyPartWritten_same _).connStatus
  · exact (finish_connStatus h).trans rfl
  · exact (finish_connStatus h).trans (writeBodyPartWritten_same _).connStatus

theorem exec_connStatus (h : w.exec a = some (w', ev)) :
    w'.response.connStatus = w.response.connStatus := by
  cases a with
  | requestRead message =>
    simp only [exec, Option.ite_none_right_eq_some] at h
    cases h.2
    rfl
  | requestFailed =>
    simp only [exec, Option.ite_none_right_eq_some] at h
    cases h.2
    rfl
  | handlerReturns =>
    simp only [exec, Option.ite_none_right_eq_some] at h
    obtain ⟨-, h⟩ := h
    split at h
    · exact takeRequest_connStatus h
    · cases h
      rfl
  | bodyRead => exact proceedToNext_connStatus h
  | head request call =>
    simp only [exec, Option.ite_none_right_eq_some] at h
    obtain ⟨-, h⟩ := h
    split at h
    · cases h
    · rename_i response hhead
      cases h
      exact (head_same hhead).1.connStatus
  | flushHeaders request =>
    simp only [exec, Option.ite_none_right_eq_some] at h
    obtain ⟨-, h⟩ := h
    split at h
    · cases h
    · rename_i response bytes hwrites
      cases h
      exact (flushHeadersWrites_same hwrites).connStatus
  | writeBodyPart request b =>
    simp only [exec, Option.ite_none_right_eq_some] at h
    obtain ⟨-, h⟩ := h
    split at h
    · cases h
    · rename_i response bytes hwrites
      cases h
      exact (writeBodyPartWrites_same hwrites).connStatus
  | «end» request =>
    simp only [exec, Option.ite_none_right_eq_some] at h
    obtain ⟨-, h⟩ := h
    split at h
    · cases h
    · rename_i response bytes hwrites
      cases h
      exact (endWrites_same hwrites).connStatus
    · rename_i response hwrites
      obtain ⟨⟨w₁, ev₁⟩, hfinish, h⟩ := Option.bind_eq_some_iff.mp h
      cases h
      exact (finish_connStatus hfinish).trans (endWrites_same hwrites).connStatus
  | endWith request b =>
    simp only [exec, Option.ite_none_right_eq_some] at h
    obtain ⟨-, h⟩ := h
    split at h
    · cases h
    · rename_i response bytes hwrites
      cases h
      exact (endWithWrites_same hwrites).connStatus
  | written write ok =>
    simp only [exec, Option.ite_none_right_eq_some] at h
    obtain ⟨-, h⟩ := h
    split at h
    · exact (written_connStatus h).trans rfl
    · exact (writeFailed_connStatus h).trans rfl
  | endGoesOn =>
    simp only [exec] at h
    split at h
    · cases h
    · split at h
      · cases h
      · exact (finish_connStatus h).trans rfl

/-- In every run the response has the status it was made with, however the writes go. -/
theorem run_keepAlive {as : List ConnAct} (h : httpConnection.run initial as = some w) :
    w.response.connStatus = .keepAlive := by
  refine httpConnection.run_kept (J := fun w => w.response.connStatus = .keepAlive) ?_ rfl h
  intro w a w' hk hs
  obtain ⟨⟨w₁, ev⟩, hexec, rfl⟩ := Option.map_eq_some_iff.mp hs
  exact (exec_connStatus hexec).trans hk

end HttpConnection

/-- In every state a connection reaches, and for all calls that complete a response there: what
becomes of the connection is what is meant, exactly if the response does not carry
`Connection: close`. -/
theorem connection_persistence_iff {as : List ConnAct} {w : HttpConnection}
    (hw : httpConnection.run .initial as = some w) (s : ResponseCalls) {r' : HttpServerResponse}
    {q' : RRQueue 0} {bytes : Str}
    (hdone : s.run w.request.version w.response w.rrQueue = .ok (r', q', bytes)) :
    (∃ calls, s.effects w.request.version w.response = .ok calls ∧
      Persists w.request (s.carried as w.response.base.idx) w.response.base.idx w.rrQueue q'
        calls) ↔
      ¬ConnectionIs (s.carried as w.response.base.idx) closeValue := by
  obtain ⟨writes, hcalls, hwrites, hrelease⟩ :=
    ResponseCalls.effects_eq (HttpConnection.run_keepAlive hw) hdone
  have hnoend : ResponseEffect.end ∉ writes ++ [ResponseEffect.release w.response.base.idx,
    .proceedToNext] := by
    intro hmem
    rcases List.mem_append.mp hmem with hmem | hmem
    · cases hwrites _ hmem
    · simp at hmem
  constructor
  · rintro ⟨calls, hcalls', hpersists⟩ hclose
    cases hcalls.symm.trans hcalls'
    obtain ⟨before, after, heq, -⟩ := hpersists.closed hclose
    rw [heq] at hnoend
    exact hnoend (by simp)
  · intro hno
    exact ⟨_, hcalls, fun hclose => absurd hclose hno, fun _ => ⟨hnoend, by simp, hrelease⟩⟩

/-- The connection when its first request, an HTTP/1.1 one, has been read. -/
def firstRequestRead : HttpConnection :=
  { HttpConnection.initial with
    getter := .calling
    request := { idx := 0, version := chars ['1', '.', '1'], readStatus := .completed }
    opened := [0] }

def readsFirstRequest : List ConnAct :=
  [.requestRead { version := chars ['1', '.', '1'], readStatus := .completed }]

theorem run_firstRequestRead :
    httpConnection.run .initial readsFirstRequest = some firstRequestRead := rfl

/-- `Connection: value` and no body. -/
def answerWith (value : Str) : ResponseCalls where
  heads := [.writeHead 200 none,
    .addHeader (chars ['C', 'o', 'n', 'n', 'e', 'c', 't', 'i', 'o', 'n']) value]

theorem connection_persistence_keepAlive :
    ∃ q' calls, (answerWith keepAliveValue).effects firstRequestRead.request.version
        firstRequestRead.response = .ok calls ∧
      Persists firstRequestRead.request
        ((answerWith keepAliveValue).carried readsFirstRequest 0) 0 firstRequestRead.rrQueue q'
        calls := by
  obtain ⟨⟨r', q', bytes⟩, hdone⟩ : ∃ x, (answerWith keepAliveValue).run
      firstRequestRead.request.version firstRequestRead.response firstRequestRead.rrQueue =
        .ok x := ⟨_, rfl⟩
  exact ⟨q', (connection_persistence_iff run_firstRequestRead _ hdone).mpr (by decide +kernel)⟩

/-- `Connection: close`: the response is written, and the slot is released for the next request. The
base class has the status `close`, as it has for every response. -/
theorem close_not_ended :
    ∃ bytes, (answerWith closeValue).effects firstRequestRead.request.version
        firstRequestRead.response = .ok [.write bytes, .release 0, .proceedToNext] ∧
      ConnectionIs ((answerWith closeValue).carried readsFirstRequest 0) closeValue ∧
      ∀ q', ¬Persists firstRequestRead.request
        ((answerWith closeValue).carried readsFirstRequest 0) 0 firstRequestRead.rrQueue q'
        [.write bytes, .release 0, .proceedToNext] := by
  refine ⟨_, rfl, by decide +kernel, fun q' hpersists => ?_⟩
  obtain ⟨before, after, hcalls, -⟩ := hpersists.closed (by decide +kernel)
  have hmem : ResponseEffect.end ∈ before ++ .end :: after := by simp
  rw [← hcalls] at hmem
  simp at hmem

end NodeCpp
