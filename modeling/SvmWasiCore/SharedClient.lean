import SvmWasiCore.RpcSessions
import SvmWasiCore.Lib.Interleaving

/-!
One client shared by threads.

A call is three atomic actions: it takes an id from the counter, records its request under one
lock of the mock transport and takes a response under the other. Between two of them any actions
of other threads may come, so the k-th request need not get the k-th response; ids, requests and
responses are each handed out once all the same.
-/

namespace SvmWasiCore.SharedClient

open Json Rpc RpcAccounts RpcMethods RpcSessions Lib.Interaction Lib.Interleaving

inductive Action
  | fetchAdd
  | push (request : Value)
  | pop

abbrev Action.Result : Action → Type
  | .fetchAdd => UInt64
  | .push _ => PUnit
  | .pop => Option Value

abbrev ActionEvent := Event Action Action.Result

/-- What the threads have in common. -/
structure Shared where
  nextId : UInt64
  mock : MockTransport

def Shared.new (responses : List Value) : Shared := ⟨1, .new responses⟩

def world : World Action Action.Result Shared
  | s, .fetchAdd => (s.nextId, { s with nextId := s.nextId + 1 })
  | s, .push request =>
    ((), { s with mock := { s.mock with received := s.mock.received ++ [request] } })
  | s, .pop =>
    (s.mock.responses.getLast?,
      { s with mock := { s.mock with responses := s.mock.responses.dropLast } })

abbrev Thread (α : Type) := Prog Action Action.Result α

def delivered : Option Value → Except RpcError Value
  | some response => .ok response
  | none => .error (.transport "MockTransport: no more queued responses")

/-- `MockTransport::send`, lock by lock. -/
def send (request : Value) : Thread (Except RpcError Value) := do
  Prog.perform (Action.push request)
  let response ← Prog.perform Action.pop
  return delivered response

variable {α : Type} (texts : TextForms)

def call (m : Method) : Thread (Except RpcError m.Answer) := do
  let id ← Prog.perform Action.fetchAdd
  let response ← send (m.request id)
  return m.answer texts response

/-- A session on the shared client. -/
def thread : Session α → Thread α
  | .done a => .done a
  | .ask m next => (call texts m).bind fun result => thread (next result)

/-! ### What happens in a run -/

def takenId : ActionEvent → Option UInt64
  | ⟨.fetchAdd, id⟩ => some id
  | _ => none

def recordedRequest : ActionEvent → Option Value
  | ⟨.push request, _⟩ => some request
  | _ => none

def poppedResponse : ActionEvent → Option (Option Value)
  | ⟨.pop, response⟩ => some response
  | _ => none

def ids (tr : List ActionEvent) : List UInt64 := tr.filterMap takenId

def requests (tr : List ActionEvent) : List Value := tr.filterMap recordedRequest

def pops (tr : List ActionEvent) : List (Option Value) := tr.filterMap poppedResponse

/-- The id a request is sent under. -/
def idOf (request : Value) : Option UInt64 := (request.get "id").bind Value.asU64

/-- A call, the id it took and the response it found. -/
structure Served where
  id : UInt64
  method : Method
  response : Option Value

namespace Served

def events (c : Served) : List ActionEvent :=
  [⟨.fetchAdd, c.id⟩, ⟨.push (c.method.request c.id), ()⟩, ⟨.pop, c.response⟩]

/-- What the session sees of the call. -/
def answered (c : Served) : Event Method fun m => Except RpcError m.Answer :=
  ⟨c.method, c.method.answer texts (delivered c.response)⟩

end Served

/-! ### One thread -/

variable {texts} {p : Session α} {q : Thread α} {tr : List ActionEvent} {a : α}

lemma thread_ask (m : Method) (next : Except RpcError m.Answer → Session α) :
    thread texts (.ask m next) = .ask .fetchAdd fun id => .ask (.push (m.request id)) fun _ =>
      .ask .pop fun response => thread texts (next (m.answer texts (delivered response))) := rfl

/-- A thread that has ended made its calls one by one. -/
lemma served_of_runs (h : Runs (thread texts p) tr a) : ∃ calls : List Served,
    tr = calls.flatMap Served.events ∧ Runs p (calls.map (Served.answered texts)) a := by
  induction p generalizing tr with
  | done b =>
    cases h
    exact ⟨[], rfl, .done a⟩
  | ask m next ih =>
    rw [thread_ask] at h
    obtain ⟨id, tr₁, h₁, htr⟩ := runs_ask_iff.mp h
    obtain ⟨⟨⟩, tr₂, h₂, htr₁⟩ := runs_ask_iff.mp h₁
    obtain ⟨response, tr₃, h₃, htr₂⟩ := runs_ask_iff.mp h₂
    obtain ⟨calls, htr₃, hcalls⟩ := ih _ h₃
    refine ⟨⟨id, m, response⟩ :: calls, ?_, .ask hcalls⟩
    rw [htr, htr₁, htr₂, htr₃]
    rfl

/-- A thread records a request under each id it takes, in order, up to the last. -/
lemma prefixed_requests (h : Reaches (thread texts p) tr q) :
    (requests tr).map idOf <+: (ids tr).map some := by
  induction p generalizing tr with
  | done b =>
    cases h
    exact List.prefix_rfl
  | ask m next ih =>
    rw [thread_ask] at h
    cases h with
    | here => exact List.prefix_rfl
    | ask h =>
      cases h with
      | here => exact List.nil_prefix
      | ask h =>
        cases h with
        | here => exact List.prefix_rfl
        | ask h =>
          have hrest := ih _ h
          exact List.cons_prefix_cons.mpr ⟨rfl, hrest⟩

/-- A thread that has the client to itself is a session on the mock transport. -/
lemma runIn_thread (p : Session α) (s : Shared) :
    let ((a, nextId), _, mock) := (onWire texts p s.nextId).runIn MockTransport.send s.mock
    ((thread texts p).runIn world s).1 = a ∧
      ((thread texts p).runIn world s).2.2 = ⟨nextId, mock⟩ := by
  induction p generalizing s with
  | done a => exact ⟨rfl, rfl⟩
  | ask m next ih =>
    have hsend : MockTransport.send s.mock (m.request s.nextId) =
        (delivered s.mock.responses.getLast?,
          ⟨s.mock.responses.dropLast, s.mock.received ++ [m.request s.nextId]⟩) := by
      rw [MockTransport.send]
      cases hlast : s.mock.responses.getLast? with
      | some response => rfl
      | none =>
        rw [List.getLast?_eq_none_iff.mp hlast]
        rfl
    rw [thread_ask, onWire, Prog.runIn, hsend]
    exact ih _ ⟨s.nextId + 1, s.mock.responses.dropLast,
      s.mock.received ++ [m.request s.nextId]⟩

/-! ### The shared state -/

variable {s s' : Shared} {responses : List Value}

/-- The counter hands out the ids in order. -/
lemma getElem?_ids (h : Answers world s tr s') {k : ℕ} {id : UInt64}
    (hk : (ids tr)[k]? = some id) : id = s.nextId + .ofNat k := by
  induction h generalizing k with
  | nil s => cases hk
  | @cons s s' e tr h ih =>
    cases e with
    | fetchAdd =>
      cases k with
      | zero =>
        cases hk
        exact (UInt64.add_zero s.nextId).symm
      | succ k =>
        rw [ih hk]
        exact next_id
    | push request => exact ih hk
    | pop => exact ih hk

/-- Every request is recorded, in the order of the first lock. -/
lemma received_eq (h : Answers world s tr s') :
    s'.mock.received = s.mock.received ++ requests tr := by
  induction h with
  | nil s => exact (List.append_nil _).symm
  | @cons s s' e tr h ih =>
    rw [ih]
    cases e with
    | fetchAdd => rfl
    | push request => exact List.append_assoc _ _ _
    | pop => rfl

/-- The responses are handed out in the order of the queue, by the second lock. -/
lemma pops_eq (h : Answers world s tr s') (hs : s.mock.responses = responses.reverse) :
    s'.mock.responses = (responses.drop (pops tr).length).reverse ∧
      ∀ (k : ℕ) (response : Option Value), (pops tr)[k]? = some response →
        response = responses[k]? := by
  induction h generalizing responses with
  | nil s =>
    refine ⟨hs, fun k response hk => ?_⟩
    cases hk
  | @cons s s' e tr h ih =>
    cases e with
    | fetchAdd => exact ih hs
    | push request => exact ih hs
    | pop =>
      have hlast : (world s .pop).1 = responses[0]? := by
        change s.mock.responses.getLast? = _
        rw [hs, List.getLast?_reverse, List.head?_eq_getElem?]
      have hrest : (world s .pop).2.mock.responses = responses.tail.reverse := by
        change s.mock.responses.dropLast = _
        rw [hs, List.dropLast_reverse]
      obtain ⟨hremaining, hpops⟩ := ih hrest
      refine ⟨?_, fun k response hk => ?_⟩
      · rw [hremaining, ← List.drop_one, List.drop_drop]
        change _ = (responses.drop ((pops tr).length + 1)).reverse
        rw [Nat.add_comm]
      · cases k with
        | zero => exact (Option.some.inj hk).symm.trans hlast
        | succ k =>
          rw [hpops k response hk, ← List.drop_one, List.getElem?_drop, Nat.add_comm]

/-! ### All threads -/

/-- No two of the first `2 ^ 64` ids are the same. -/
lemma ids_nodup (h : Answers world s tr s') (hlen : (ids tr).length ≤ 2 ^ 64) :
    (ids tr).Nodup := by
  rw [List.nodup_iff_getElem?_ne_getElem?]
  intro i j hij hj heq
  rw [List.getElem?_eq_getElem hj] at heq
  have hid := getElem?_ids h (List.getElem?_eq_getElem hj)
  rw [getElem?_ids h heq] at hid
  exact hij.ne (id_add_inj (by omega) (by omega) hid)

/-- Before they come back to `0` the ids increase. -/
lemma ids_increasing (h : Answers world (.new responses) tr s')
    (hlen : (ids tr).length < 2 ^ 64) : (ids tr).Pairwise (· < ·) := by
  rw [List.pairwise_iff_getElem]
  intro i j hi hj hij
  have hnat : ∀ k (hk : k < (ids tr).length), (ids tr)[k].toNat = 1 + k := by
    intro k hk
    have hid : (ids tr)[k] = 1 + .ofNat k := getElem?_ids h (List.getElem?_eq_getElem hk)
    rw [hid, UInt64.toNat_add, UInt64.toNat_ofNat_of_lt' (by rw [UInt64.size]; omega)]
    exact Nat.mod_eq_of_lt (by simp only [UInt64.toNat_one]; omega)
  rw [UInt64.lt_iff_toNat_lt, hnat i hi, hnat j hj]
  omega

variable {ι : Type} [DecidableEq ι] {sessions : ι → Session α} {left : ι → Thread α}
  {tr : List (ι × ActionEvent)}

/-- All events, in the order they happened. -/
abbrev events (tr : List (ι × ActionEvent)) : List ActionEvent := tr.map (·.2)

lemma map_requests (tr : List ActionEvent) : (requests tr).map idOf =
    tr.filterMap fun ev => (recordedRequest ev).map idOf := List.map_filterMap

lemma map_ids (tr : List ActionEvent) : (ids tr).map some =
    tr.filterMap fun ev => (takenId ev).map some := List.map_filterMap

/-- The requests carry ids that were taken, each at most once. -/
lemma requests_subperm (h : Interleaved world (fun i => thread texts (sessions i)) s tr left s') :
    ((requests (events tr)).map idOf).Subperm ((ids (events tr)).map some) := by
  rw [map_requests, map_ids]
  refine subperm_of_eventsOf fun i => ?_
  rw [← map_requests, ← map_ids]
  exact (prefixed_requests (h.reaches i)).sublist.subperm

/-- A thread whose calls are over has recorded one request and taken one response for each id. -/
lemma settled_of_served {tr : List ActionEvent} {calls : List Served}
    (h : tr = calls.flatMap Served.events) : (requests tr).map idOf = (ids tr).map some ∧
      (pops tr).map (fun _ => ()) = (ids tr).map (fun _ => ()) := by
  subst h
  induction calls with
  | nil => exact ⟨rfl, rfl⟩
  | cons c calls ih =>
    exact ⟨congrArg (some c.id :: ·) ih.1, congrArg (() :: ·) ih.2⟩

lemma settled_of_done (h : ∀ i, ∃ calls : List Served,
      eventsOf i tr = calls.flatMap Served.events) :
    ((requests (events tr)).map idOf).Perm ((ids (events tr)).map some) ∧
      (pops (events tr)).length = (ids (events tr)).length := by
  have hsettled (i : ι) := (h i).elim fun _ => settled_of_served
  have hrequests : ((requests (events tr)).map idOf).Perm ((ids (events tr)).map some) := by
    rw [map_requests, map_ids]
    refine perm_of_eventsOf fun i => ?_
    rw [← map_requests, ← map_ids, (hsettled i).1]
  have hpops : ((pops (events tr)).map fun _ => ()).Perm ((ids (events tr)).map fun _ => ()) := by
    simp only [pops, ids, List.map_filterMap]
    refine perm_of_eventsOf fun i => ?_
    rw [← List.map_filterMap, ← List.map_filterMap]
    exact .of_eq (hsettled i).2
  have hlength := hpops.length_eq
  rw [List.length_map, List.length_map] at hlength
  exact ⟨hrequests, hlength⟩

variable (texts) in
/-- What holds at any moment of any interleaving. -/
structure SharedSafely (sessions : ι → Session α) (responses : List Value)
    (tr : List (ι × ActionEvent)) (left : ι → Thread α) (s : Shared) : Prop where
  numbered : ∀ (k : ℕ) (id : UInt64), (ids (events tr))[k]? = some id → id = 1 + .ofNat k
  increasing : (ids (events tr)).length < 2 ^ 64 → ∀ i, (ids (eventsOf i tr)).Pairwise (· < ·)
  recorded : s.mock.received = requests (events tr)
  distinct : (ids (events tr)).length ≤ 2 ^ 64 → s.mock.received.Nodup
  handedOut : ∀ (k : ℕ) (response : Option Value), (pops (events tr))[k]? = some response →
    response = responses[k]?
  remaining : s.mock.responses = (responses.drop (pops (events tr)).length).reverse
  served : ∀ i a, left i = .done a → ∃ calls : List Served,
    eventsOf i tr = calls.flatMap Served.events ∧
      Runs (sessions i) (calls.map (Served.answered texts)) a
  settled : (∀ i, ∃ a, left i = .done a) →
    (s.mock.received.map idOf).Perm ((ids (events tr)).map some) ∧
      (pops (events tr)).length = (ids (events tr)).length

/-- **A client is safe to share.** In any interleaving of any number of threads on one client, at
any moment: the calls take the ids from `1` on, which wrap around at `2 ^ 64`; until they do, each
thread has them in increasing order and no two requests are the same; every request is recorded
once; the responses are handed out once each, in the order of the queue; and a thread that has ended
saw a run of its session. When all have ended, every id has its request and its response. -/
theorem shared_safely (h : Interleaved world (fun i => thread texts (sessions i)) (.new responses)
    tr left s) : SharedSafely texts sessions responses tr left s := by
  have hanswers := h.answers
  have hids := ids_nodup hanswers
  obtain ⟨hremaining, hpops⟩ := pops_eq hanswers rfl
  have hreceived : s.mock.received = requests (events tr) := received_eq hanswers
  have hserved (i : ι) (a : α) (hi : left i = .done a) : ∃ calls : List Served,
      eventsOf i tr = calls.flatMap Served.events ∧
        Runs (sessions i) (calls.map (Served.answered texts)) a := served_of_runs (h.runs hi)
  exact
    { numbered := fun k id => getElem?_ids hanswers
      increasing := fun hlen i => by
        have hsub : (eventsOf i tr).Sublist (events tr) := List.filter_sublist.map _
        exact (ids_increasing hanswers hlen).sublist (hsub.filterMap takenId)
      recorded := hreceived
      distinct := fun hlen => by
        obtain ⟨l, hperm, hsub⟩ := requests_subperm h
        have hnodup := ((hids hlen).map (Option.some_injective _)).sublist hsub
        rw [hreceived]
        exact .of_map idOf (hperm.nodup_iff.mp hnodup)
      handedOut := hpops
      remaining := hremaining
      served := hserved
      settled := fun hdone => by
        rw [hreceived]
        refine settled_of_done fun i => ?_
        obtain ⟨a, ha⟩ := hdone i
        obtain ⟨calls, hcalls, -⟩ := hserved i a ha
        exact ⟨calls, hcalls⟩ }

/-- Two threads, one call each. -/
def twoSessions : Bool → Session (Except RpcError UInt64)
  | false => .ask (.getMinimumBalanceForRentExemption 80) .done
  | true => .ask (.getMinimumBalanceForRentExemption 165) .done

def twoResponses : List Value :=
  [MockTransport.wrapped (.number (.posInt 1)), MockTransport.wrapped (.number (.posInt 2))]

/-- The second thread is quicker between the locks. -/
def crossed := schedule world [false, true, false, true, true, false]
  (fun i => thread sampleTexts (twoSessions i)) (.new twoResponses)

theorem shared_safely_crossed :
    SharedSafely sampleTexts twoSessions twoResponses crossed.1 crossed.2.1 crossed.2.2 :=
  shared_safely (interleaved_schedule _ _ _ _)

/-- The request recorded first got the response queued second. -/
example : crossed.2.2.mock.received =
      [(Method.getMinimumBalanceForRentExemption 80).request 1,
        (Method.getMinimumBalanceForRentExemption 165).request 2] ∧
    pops (eventsOf false crossed.1) = twoResponses[1]? :: [] :=
  ⟨rfl, rfl⟩

end SvmWasiCore.SharedClient
