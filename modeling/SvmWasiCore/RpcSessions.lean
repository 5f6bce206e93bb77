import SvmWasiCore.RpcMethods
import SvmWasiCore.Lib.Interaction

/-!
Sessions of the client: calls whose order and arguments may depend on earlier answers.

A transport has a state and may answer the same request differently each time. The client of the
other modules takes a function of the request instead; the ids make up for the difference. The
transport of the tests replays a queue.
-/

namespace SvmWasiCore.RpcSessions

open Json Rpc RpcAccounts RpcMethods Lib.Interaction

/-- What a transport returns for a request. -/
abbrev Response : Value → Type := fun _ => Except RpcError Value

/-- A transport with a state: `send`. -/
abbrev Transport (σ : Type) := World Value Response σ

/-- A program that calls methods of the client. -/
abbrev Session (α : Type) := Prog Method (fun m => Except RpcError m.Answer) α

variable {α σ : Type} (texts : TextForms)

/-- The session on a client whose transport is a function of the request. -/
def run : Session α → RpcClient → α × RpcClient
  | .done a, client => (a, client)
  | .ask m next, client =>
    let (result, client) := m.on texts client
    run (next result) client

/-- The session as requests, from this id on. -/
def onWire : Session α → UInt64 → Prog Value Response (α × UInt64)
  | .done a, id => .done (a, id)
  | .ask m next, id => .ask (m.request id) fun response =>
    onWire (next (m.answer texts response)) (id + 1)

/-! ### The calls of a session and their exchanges -/

/-- A call, and what the transport returned for it. -/
abbrev Call := Method × Except RpcError Value

/-- What the session sees of a call. -/
def answered (c : Call) : Event Method fun m => Except RpcError m.Answer :=
  ⟨c.1, c.1.answer texts c.2⟩

/-- What the transport sees of the calls. -/
def exchanges : UInt64 → List Call → List (Event Value Response)
  | _, [] => []
  | id, c :: cs => ⟨c.1.request id, c.2⟩ :: exchanges (id + 1) cs

variable {texts} {calls : List Call} {id : UInt64} {p : Session α} {a : α}

@[simp] lemma exchanges_length : (exchanges id calls).length = calls.length := by
  induction calls generalizing id with
  | nil => rfl
  | cons c cs ih => rw [exchanges, List.length_cons, List.length_cons, ih]

lemma next_id {k : ℕ} : id + 1 + .ofNat k = id + .ofNat (k + 1) := by
  rw [UInt64.ofNat_add, UInt64.add_assoc, UInt64.add_comm 1]
  rfl

lemma getElem?_exchanges {k : ℕ} : (exchanges id calls)[k]? =
    calls[k]?.map fun c => ⟨c.1.request (id + .ofNat k), c.2⟩ := by
  induction calls generalizing id k with
  | nil => rfl
  | cons c cs ih =>
    cases k with
    | zero => simp [exchanges]
    | succ k =>
      rw [exchanges, List.getElem?_cons_succ, List.getElem?_cons_succ, ih, next_id]

/-- Ids do not come back before all others are used. -/
lemma id_add_inj {i j : ℕ} (hi : i < 2 ^ 64) (hj : j < 2 ^ 64)
    (h : id + .ofNat i = id + .ofNat j) : i = j := by
  have hof := UInt64.add_right_inj id |>.mp h
  rwa [← UInt64.toNat_inj, UInt64.toNat_ofNat_of_lt' hi, UInt64.toNat_ofNat_of_lt' hj] at hof

/-- Fewer requests than ids: no two are the same. -/
lemma exchanges_nodup (h : calls.length ≤ 2 ^ 64) :
    ((exchanges id calls).map Event.effect).Nodup := by
  rw [List.nodup_iff_getElem?_ne_getElem?]
  intro i j hij hj
  rw [List.length_map, exchanges_length] at hj
  rw [List.getElem?_map, List.getElem?_map, getElem?_exchanges, getElem?_exchanges,
    List.getElem?_eq_getElem hj, List.getElem?_eq_getElem (hij.trans hj)]
  simp only [Option.map_some, ne_eq, Option.some.injEq]
  intro hreq
  exact hij.ne (id_add_inj (by omega) (by omega) (Method.request_inj.mp hreq).1)

/-- The runs on the wire are those of the session, call by call. -/
lemma runs_onWire_iff {tr : List (Event Value Response)} {id' : UInt64} :
    Runs (onWire texts p id) tr (a, id') ↔ ∃ calls : List Call,
      Runs p (calls.map (answered texts)) a ∧ tr = exchanges id calls ∧
        id' = id + .ofNat calls.length := by
  induction p generalizing id tr with
  | done b =>
    refine ⟨fun h => ?_, fun h => ?_⟩
    · cases h
      exact ⟨[], .done a, rfl, by simp⟩
    · obtain ⟨calls, h, rfl, rfl⟩ := h
      cases calls with
      | nil =>
        cases h
        simpa [onWire, exchanges] using Runs.done (a, id)
      | cons c cs => cases h
  | ask m next ih =>
    rw [onWire, runs_ask_iff]
    refine ⟨fun h => ?_, fun h => ?_⟩
    · obtain ⟨r, tr', h, rfl⟩ := h
      obtain ⟨cs, hcs, rfl, rfl⟩ := (ih _).mp h
      exact ⟨(m, r) :: cs, .ask hcs, rfl, next_id⟩
    · obtain ⟨calls, h, rfl, rfl⟩ := h
      cases calls with
      | nil => cases h
      | cons c cs =>
        obtain ⟨m', r⟩ := c
        obtain ⟨r', tr', h, heq⟩ := runs_ask_iff.mp h
        obtain ⟨hev, rfl⟩ := List.cons.inj heq
        cases hev
        exact ⟨r, exchanges (id + 1) cs, (ih _).mpr ⟨cs, h, rfl, next_id.symm⟩, rfl⟩

/-! ### A transport with a state, and one that is a function -/

lemma run_eq_onWire (transport : Value → Except RpcError Value) (p : Session α) (id : UInt64) :
    run texts p ⟨transport, id⟩ =
      let (a, id') := ((onWire texts p id).runIn (table transport) ()).1
      (a, ⟨transport, id'⟩) := by
  induction p generalizing id with
  | done a => rfl
  | ask m next ih =>
    rw [run, Method.on_eq]
    exact ih _ _

/-- **The functional client is enough.** Whatever transport a session runs on, its requests are
its calls numbered from the client's id on. While there are ids left, some function of the request
gives the same responses, and on every such function the session of the client ends the same. -/
theorem session_functional (texts : TextForms) (send : Transport σ) (s : σ) (p : Session α)
    (id : UInt64) :
    let ((a, id'), tr, _) := (onWire texts p id).runIn send s
    ∃ calls : List Call, tr = exchanges id calls ∧ Runs p (calls.map (answered texts)) a ∧
      id' = id + .ofNat calls.length ∧
      (calls.length ≤ 2 ^ 64 → ∃ transport : Value → Except RpcError Value,
        ∀ ev ∈ tr, transport ev.effect = ev.answer) ∧
      ∀ transport : Value → Except RpcError Value,
        (∀ ev ∈ tr, transport ev.effect = ev.answer) →
        run texts p ⟨transport, id⟩ = (a, ⟨transport, id'⟩) := by
  have hruns := runs_runIn send (onWire texts p id) s
  obtain ⟨calls, hcalls, htr, hid⟩ := runs_onWire_iff.mp hruns
  refine ⟨calls, htr, hcalls, hid, fun hlen => ?_, fun transport h => ?_⟩
  · have : Nonempty (Except RpcError Value) := ⟨.ok .null⟩
    rw [htr]
    exact exists_table (exchanges_nodup hlen)
  · rw [run_eq_onWire, hruns.runIn_table h]

/-! ### The transport of the tests -/

/-- The responses stand in reverse, the next one last. -/
structure MockTransport where
  responses : List Value
  received : List Value

namespace MockTransport

def new (responses : List Value) : MockTransport := ⟨responses.reverse, []⟩

/-- `json!({"result": r})`. -/
def wrapped (result : Value) : Value := .object [("result", result)]

def ok (results : List Value) : MockTransport := new (results.map wrapped)

def send : Transport MockTransport := fun mock request =>
  let received := mock.received ++ [request]
  match mock.responses.getLast? with
  | some response => (.ok response, ⟨mock.responses.dropLast, received⟩)
  | none => (.error (.transport "MockTransport: no more queued responses"), ⟨[], received⟩)

/-- What the queue holds for the request at a position. -/
def queued (responses : List Value) (k : ℕ) : Except RpcError Value :=
  match responses[k]? with
  | some response => .ok response
  | none => .error (.transport "MockTransport: no more queued responses")

lemma send_cons (r : Value) (rs received : List Value) (request : Value) :
    send ⟨(r :: rs).reverse, received⟩ request = (.ok r, ⟨rs.reverse, received ++ [request]⟩) := by
  simp [send]

lemma send_nil (received : List Value) (request : Value) :
    send ⟨[].reverse, received⟩ request = (queued [] 0, ⟨[].reverse, received ++ [request]⟩) :=
  rfl

/-- Any program on the queue: requests are recorded and responses handed out in order. -/
lemma runIn_send (p : Prog Value Response α) (rs received : List Value) :
    let (_, tr, mock) := p.runIn send ⟨rs.reverse, received⟩
    mock = ⟨(rs.drop tr.length).reverse, received ++ tr.map Event.effect⟩ ∧
      ∀ (k : ℕ) (ev : Event Value Response), tr[k]? = some ev → ev.answer = queued rs k := by
  induction p generalizing rs received with
  | done a => simp [Prog.runIn]
  | ask e next ih =>
    cases rs with
    | nil =>
      rw [Prog.runIn, send_nil]
      obtain ⟨hmock, hanswers⟩ := ih (queued [] 0) [] (received ++ [e])
      refine ⟨?_, fun k ev hev => ?_⟩
      · simpa using hmock
      · cases k with
        | zero =>
          cases hev
          rfl
        | succ k => exact hanswers k ev hev
    | cons r rs =>
      rw [Prog.runIn, send_cons]
      obtain ⟨hmock, hanswers⟩ := ih (.ok r) rs (received ++ [e])
      refine ⟨?_, fun k ev hev => ?_⟩
      · simpa using hmock
      · cases k with
        | zero =>
          cases hev
          rfl
        | succ k => exact hanswers k ev hev

/-- What a session on a mock transport saw and left behind. -/
structure Replayed (texts : TextForms) (responses : List Value) (calls : List Call)
    (mock : MockTransport) : Prop where
  count : mock.received.length = calls.length
  request : ∀ (k : ℕ) (c : Call), calls[k]? = some c →
    mock.received[k]? = some (c.1.request (1 + .ofNat k))
  response : ∀ (k : ℕ) (c : Call), calls[k]? = some c → c.2 = queued responses k
  exhausted : ∀ (k : ℕ) (c : Call), calls[k]? = some c → responses.length ≤ k →
    c.1.answer texts c.2 = .error (.transport "MockTransport: no more queued responses")
  remaining : mock.responses = (responses.drop calls.length).reverse

lemma answer_error (m : Method) (e : RpcError) : m.answer texts (.error e) = .error e := by
  cases m <;> rfl

lemma answer_wrapped (m : Method) (v : Value) :
    m.answer texts (.ok (wrapped v)) = m.decode texts (.ok v) := by
  have hget : (wrapped v).get "error" = none := rfl
  have hresult : resultOf (wrapped v) = .ok v := by
    rw [resultOf, hget]
    rfl
  rw [Method.answer]
  exact congrArg (m.decode texts) hresult

lemma queued_of_length_le {responses : List Value} {k : ℕ} (h : responses.length ≤ k) :
    queued responses k = .error (.transport "MockTransport: no more queued responses") := by
  rw [queued, List.getElem?_eq_none h]

/-- **The mock transport is a queue.** A session on it, whatever it calls and in whatever order,
gets the queued responses one by one, an error once they are used up, and leaves its requests
recorded in order under the ids from 1 on. A queue made by `ok` gives the results as they are. -/
theorem mock_replays (texts : TextForms) (responses : List Value) (p : Session α) :
    let ((a, _), _, mock) := (onWire texts p 1).runIn send (new responses)
    ∃ calls : List Call, Runs p (calls.map (answered texts)) a ∧
      Replayed texts responses calls mock ∧
      ∀ results : List Value, responses = results.map wrapped →
        ∀ (k : ℕ) (c : Call) (v : Value), calls[k]? = some c → results[k]? = some v →
          c.1.answer texts c.2 = c.1.decode texts (.ok v) := by
  obtain ⟨calls, hcalls, htr, -⟩ :=
    runs_onWire_iff.mp (runs_runIn send (onWire texts p 1) (new responses))
  obtain ⟨hmock, hanswers⟩ := runIn_send (onWire texts p 1) responses []
  rw [← new, htr] at hmock hanswers
  rw [exchanges_length, List.nil_append] at hmock
  have hresponse (k : ℕ) (c : Call) (hc : calls[k]? = some c) : c.2 = queued responses k := by
    refine hanswers k ⟨c.1.request (1 + .ofNat k), c.2⟩ ?_
    rw [getElem?_exchanges, hc, Option.map_some]
  refine ⟨calls, hcalls, ?_, fun results hresults k c v hc hv => ?_⟩
  · rw [hmock]
    exact
      { count := by rw [List.length_map, exchanges_length]
        request := fun k c hc => by
          rw [List.getElem?_map, getElem?_exchanges, hc, Option.map_some, Option.map_some]
        response := hresponse
        exhausted := fun k c hc hk => by
          rw [hresponse k c hc, queued_of_length_le hk, answer_error]
        remaining := rfl }
  · rw [hresponse k c hc, queued, hresults, List.getElem?_map, hv]
    exact answer_wrapped c.1 v

end MockTransport

end SvmWasiCore.RpcSessions
