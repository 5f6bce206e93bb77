import SvmWasiCore.RpcMethods
import SvmWasiCore.Envelope
import SvmWasiCore.Lib.Hex
import SvmWasiCore.Lib.Interaction
import Mathlib.Data.List.TakeWhile

/-!
What the host programs share: the effects they perform, how they leave, their flags and their
keypair files.
-/

namespace SvmWasiCore.HostPrograms

open Json Rpc RpcAccounts RpcMethods Dalek Sign ShortVec Lib.ByteCodec Lib.Interaction Lib

inductive ExitCode
  | success
  | failure
  deriving DecidableEq

/-! ### Effects -/

inductive Stream
  | stdout
  | stderr

/-- The calls of the standard library that panic when the machine refuses them. -/
inductive StdCall
  /-- the arguments as far as they are read, refused when one of these is not Unicode -/
  | args
  /-- so many bytes of `OsRng` -/
  | random (len : ℕ)
  | line (stream : Stream) (text : String)
  | print (label : String)

abbrev StdCall.Answer : StdCall → Type
  | .args => List String
  | .random len => List.Vector UInt8 len
  | .line _ _ => PUnit
  | .print _ => PUnit

inductive Effect
  | std (c : StdCall)
  | promptPassword (label : String)
  | readFile (path : String)
  | flush
  | readLine
  /-- the transport of a client for this endpoint -/
  | send (url : String) (request : Value)

/-- An error of the operating system is given as its text. -/
abbrev Effect.Answer : Effect → Type
  | .std c => Except String c.Answer
  | .promptPassword _ => Except String String
  | .readFile _ => Except String String
  | .flush => Except String PUnit
  | .readLine => Except String String
  | .send _ _ => Except RpcError Value

inductive Stop
  | exit (code : ExitCode)
  | panic (p : Panic)
  /-- inside a call that was refused -/
  | stdPanic (c : StdCall) (text : String)

abbrev Trace := List (Event Effect Effect.Answer)

/-- A program that may leave early. -/
abbrev Script := Lib.Interaction.Script Effect Effect.Answer Stop

export Lib.Interaction.Script (ask Ends Only Stops)

variable {α β : Type}

def stdCall (c : StdCall) : Script c.Answer := do
  match ← ask (Effect.std c) with
  | .ok a => return a
  | .error text => throw (.stdPanic c text)

abbrev args : Script (List String) := stdCall .args
abbrev random (len : ℕ) : Script (List.Vector UInt8 len) := stdCall (.random len)
abbrev println (text : String) : Script PUnit := stdCall (.line .stdout text)
abbrev eprintln (text : String) : Script PUnit := stdCall (.line .stderr text)
abbrev promptPassword (label : String) : Script (Except String String) :=
  ask (Effect.promptPassword label)
abbrev readFile (path : String) : Script (Except String String) := ask (Effect.readFile path)

def printAll (stream : Stream) : List String → Script PUnit
  | [] => pure ()
  | text :: texts => do
    stdCall (.line stream text)
    printAll stream texts

/-- `match x { Ok(a) => a, Err(e) => { eprintln!(..); return ExitCode::FAILURE } }`. -/
def orExit {ε : Type} (x : Except ε α) (say : ε → List String) : Script α :=
  match x with
  | .ok a => pure a
  | .error e => do
    printAll .stderr (say e)
    throw (.exit .failure)

/-- A call that may panic. -/
def orPanic (x : Exec α) : Script α :=
  match x with
  | .ok a => pure a
  | .error p => throw (.panic p)

/-- The exit code of a program that does not panic. -/
def exitCode : Except Stop ExitCode → Option ExitCode
  | .ok code => some code
  | .error (.exit code) => some code
  | .error (.panic _) => none
  | .error (.stdPanic _ _) => none

variable {tr tr' : Trace} {o : Except Stop β} {b : β} {ε : Type} {x : Except ε α}
  {say : ε → List String} {c : StdCall}

/-- A refused call is the end of the program. -/
lemma ends_stdCall_bind_iff {f : c.Answer → Script β} : Ends (stdCall c >>= f) tr o ↔
    (∃ a tr', tr = ⟨.std c, .ok a⟩ :: tr' ∧ Ends (f a) tr' o) ∨
    ∃ text, tr = [⟨.std c, .error text⟩] ∧ o = .error (.stdPanic c text) := by
  rw [stdCall, bind_assoc, Script.ends_ask_bind_iff]
  refine ⟨fun h => ?_, fun h => ?_⟩
  · obtain ⟨r, tr', htr, h⟩ := h
    cases r with
    | ok a =>
      rw [pure_bind] at h
      exact .inl ⟨a, tr', htr, h⟩
    | error text =>
      obtain ⟨rfl, ho⟩ := Script.ends_throw_bind_iff.mp h
      exact .inr ⟨text, htr, ho⟩
  · rcases h with ⟨a, tr', htr, h⟩ | ⟨text, htr, ho⟩
    · refine ⟨.ok a, tr', htr, ?_⟩
      rw [pure_bind]
      exact h
    · exact ⟨.error text, [], htr, Script.ends_throw_bind_iff.mpr ⟨rfl, ho⟩⟩

lemma ends_stdCall_bind_ok_iff {f : c.Answer → Script β} : Ends (stdCall c >>= f) tr (.ok b) ↔
    ∃ a tr', tr = ⟨.std c, .ok a⟩ :: tr' ∧ Ends (f a) tr' (.ok b) := by
  simp [ends_stdCall_bind_iff]

lemma ends_orPanic_bind_iff {x : Exec α} {f : α → Script β} : Ends (orPanic x >>= f) tr o ↔
    (∃ a, x = .ok a ∧ Ends (f a) tr o) ∨
    ∃ p, x = .error p ∧ tr = [] ∧ o = .error (.panic p) := by
  cases x with
  | ok a =>
    rw [orPanic, pure_bind]
    simp
  | error p =>
    rw [orPanic, Script.ends_throw_bind_iff]
    simp

lemma ends_orPanic_bind_ok_iff {x : Exec α} {f : α → Script β} :
    Ends (orPanic x >>= f) tr (.ok b) ↔ ∃ a, x = .ok a ∧ Ends (f a) tr (.ok b) := by
  simp [ends_orPanic_bind_iff]

lemma ends_orExit_bind_ok_iff {f : α → Script β} : Ends (orExit x say >>= f) tr (.ok b) ↔
    ∃ a, x = .ok a ∧ Ends (f a) tr (.ok b) := by
  cases x with
  | ok a =>
    rw [orExit, pure_bind]
    simp
  | error e =>
    rw [orExit, bind_assoc]
    refine ⟨fun h => ?_, fun h => ?_⟩
    · rcases Script.ends_bind_iff.mp h with ⟨e', -, h⟩ | ⟨tr₁, u, tr₂, -, h, -⟩
      · cases h
      · cases (Script.ends_throw_bind_iff.mp h).2
    · obtain ⟨a, ha, -⟩ := h
      cases ha

lemma ends_orExit_ok_iff {a : α} : Ends (orExit x say) tr (.ok a) ↔ x = .ok a ∧ tr = [] := by
  rw [← bind_pure (orExit x say), ends_orExit_bind_ok_iff]
  simp only [Script.ends_pure_iff, Except.ok.injEq]
  refine ⟨fun h => ?_, fun h => ⟨a, h.1, h.2, rfl⟩⟩
  obtain ⟨a', hx, htr, rfl⟩ := h
  exact ⟨hx, htr⟩

/-! ### The network and the operator -/

/-- A request, where it went, and what the transport returned. -/
structure Exchange where
  url : String
  request : Value
  response : Except RpcError Value

def Exchange.ofEvent : Event Effect Effect.Answer → Option Exchange
  | ⟨.send url request, response⟩ => some ⟨url, request, response⟩
  | _ => none

def exchanges (tr : Trace) : List Exchange := tr.filterMap Exchange.ofEvent

def lineRead : Event Effect Effect.Answer → Option String
  | ⟨.readLine, .ok text⟩ => some text
  | _ => none

/-- The lines read from the standard input. -/
def linesRead (tr : Trace) : List String := tr.filterMap lineRead

@[simp] lemma exchanges_append (tr₁ tr₂ : Trace) :
    exchanges (tr₁ ++ tr₂) = exchanges tr₁ ++ exchanges tr₂ := List.filterMap_append

@[simp] lemma linesRead_append (tr₁ tr₂ : Trace) :
    linesRead (tr₁ ++ tr₂) = linesRead tr₁ ++ linesRead tr₂ := List.filterMap_append

@[simp] lemma exchanges_send_cons {url : String} {request : Value} {r : Except RpcError Value}
    {tr : Trace} :
    exchanges (⟨.send url request, r⟩ :: tr) = ⟨url, request, r⟩ :: exchanges tr := rfl

@[simp] lemma linesRead_send_cons {url : String} {request : Value} {r : Except RpcError Value}
    {tr : Trace} : linesRead (⟨.send url request, r⟩ :: tr) = linesRead tr := rfl

/-- The effect neither reaches the network nor reads a line. -/
def Effect.Local : Effect → Prop
  | .send _ _ => False
  | .readLine => False
  | _ => True

lemma ofEvent_of_local {ev : Event Effect Effect.Answer} (h : ev.effect.Local) :
    Exchange.ofEvent ev = none ∧ lineRead ev = none := by
  obtain ⟨e, r⟩ := ev
  cases e with
  | send url request => exact h.elim
  | readLine => exact h.elim
  | _ => exact ⟨rfl, rfl⟩

lemma exchanges_of_local {tr : Trace} (h : ∀ ev ∈ tr, ev.effect.Local) : exchanges tr = [] :=
  List.filterMap_eq_nil_iff.mpr fun ev hev => (ofEvent_of_local (h ev hev)).1

lemma linesRead_of_local {tr : Trace} (h : ∀ ev ∈ tr, ev.effect.Local) : linesRead tr = [] :=
  List.filterMap_eq_nil_iff.mpr fun ev hev => (ofEvent_of_local (h ev hev)).2

lemma only_stdCall : Only Effect.Local (stdCall c) := by
  refine Script.only_bind (Script.only_ask trivial) fun r => ?_
  cases r with
  | ok a => exact Script.only_pure a
  | error text => exact Script.only_throw _

lemma only_stdCall_bind {f : c.Answer → Script β} (h : ∀ a, Only Effect.Local (f a)) :
    Only Effect.Local (stdCall c >>= f) := Script.only_bind only_stdCall h

lemma only_printAll {stream : Stream} (lines : List String) :
    Only Effect.Local (printAll stream lines) := by
  induction lines with
  | nil => exact Script.only_pure _
  | cons text lines ih => exact only_stdCall_bind fun _ => ih

lemma only_orExit : Only Effect.Local (orExit x say) := by
  cases x with
  | ok a => exact Script.only_pure a
  | error e => exact Script.only_bind (only_printAll _) fun _ => Script.only_throw _

lemma only_orPanic {x : Exec α} : Only Effect.Local (orPanic x) := by
  cases x with
  | ok a => exact Script.only_pure a
  | error p => exact Script.only_throw _

lemma only_ask_bind {e : Effect} {f : e.Answer → Script β} (he : e.Local)
    (h : ∀ r, Only Effect.Local (f r)) : Only Effect.Local (ask e >>= f) :=
  Script.only_bind (Script.only_ask he) h

lemma only_orExit_bind {f : α → Script β} (h : ∀ a, Only Effect.Local (f a)) :
    Only Effect.Local (orExit x say >>= f) := Script.only_bind only_orExit h

lemma only_orPanic_bind {x : Exec α} {f : α → Script β} (h : ∀ a, Only Effect.Local (f a)) :
    Only Effect.Local (orPanic x >>= f) := Script.only_bind only_orPanic h

/-! ### Where a program stops -/

section
variable {answered : Event Effect Effect.Answer → Prop} {reason : Stop → Prop}

/-- A refused call is a reason to stop. -/
def StdStops (answered : Event Effect Effect.Answer → Prop) (reason : Stop → Prop) : Prop :=
  ∀ c text, answered ⟨.std c, .error text⟩ → reason (.stdPanic c text)

lemma stops_stdCall (hstd : StdStops answered reason) : Stops answered reason (stdCall c) := by
  refine Script.stops_ask_bind fun r hr => ?_
  cases r with
  | ok a => exact Script.stops_pure a
  | error text => exact Script.stops_throw (hstd c text hr)

lemma stops_stdCall_bind (hstd : StdStops answered reason) {f : c.Answer → Script β}
    (hf : ∀ a, answered ⟨.std c, .ok a⟩ → Stops answered reason (f a)) :
    Stops answered reason (stdCall c >>= f) := by
  intro tr e h hanswered
  rcases ends_stdCall_bind_iff.mp h with ⟨a, tr', htr, h⟩ | ⟨text, htr, he⟩
  · rw [htr, List.forall_mem_cons] at hanswered
    exact hf a hanswered.1 h hanswered.2
  · cases he
    exact hstd c text (hanswered _ (htr ▸ List.mem_cons_self))

lemma stops_printAll (hstd : StdStops answered reason) {stream : Stream} (lines : List String) :
    Stops answered reason (printAll stream lines) := by
  induction lines with
  | nil => exact Script.stops_pure _
  | cons text lines ih => exact stops_stdCall_bind hstd fun _ _ => ih

/-- Where it stops, a result that may be an error stops with a failure. -/
lemma stops_orExit (hstd : StdStops answered reason)
    (h : reason (.exit .failure) ∨ ∃ a, x = .ok a) : Stops answered reason (orExit x say) := by
  cases x with
  | ok a => exact Script.stops_pure a
  | error e =>
    obtain h | ⟨a, h⟩ := h
    · exact Script.stops_bind (stops_printAll hstd _) fun _ _ _ _ => Script.stops_throw h
    · cases h

lemma stops_orExit_bind (hstd : StdStops answered reason) {f : α → Script β}
    (h : reason (.exit .failure) ∨ ∃ a, x = .ok a)
    (hf : ∀ a, x = .ok a → Stops answered reason (f a)) :
    Stops answered reason (orExit x say >>= f) :=
  Script.stops_bind (stops_orExit hstd h) fun _ a ha _ => hf a (ends_orExit_ok_iff.mp ha).1

lemma stops_orPanic_bind {x : Exec α} {f : α → Script β}
    (h : (∀ p, reason (.panic p)) ∨ Returns x) (hf : ∀ a, x = .ok a → Stops answered reason (f a)) :
    Stops answered reason (orPanic x >>= f) := by
  cases x with
  | ok a => exact hf a rfl
  | error p =>
    obtain h | ⟨a, h⟩ := h
    · exact Script.stops_bind (Script.stops_throw (h p)) fun _ _ ha _ =>
        nomatch (Script.ends_throw_iff.mp ha).2
    · cases h

end

/-! ### Printing, and being refused it -/

/-- The program has panicked in a call that was refused. -/
def StdPanics (tr : Trace) (o : Except Stop β) : Prop :=
  ∃ c text, o = .error (.stdPanic c text) ∧ ⟨.std c, .error text⟩ ∈ tr

lemma StdPanics.mono (h : StdPanics tr' o) (hsub : tr' ⊆ tr) : StdPanics tr o := by
  obtain ⟨c, text, ho, hev⟩ := h
  exact ⟨c, text, ho, hsub hev⟩

/-- The program leaves with this exit code, if it was not refused a call before. -/
def Leaves (tr : Trace) (o : Except Stop ExitCode) (code : ExitCode) : Prop :=
  exitCode o = some code ∨ StdPanics tr o

lemma Leaves.mono {o : Except Stop ExitCode} {code : ExitCode} (h : Leaves tr' o code)
    (hsub : tr' ⊆ tr) : Leaves tr o code := h.imp_right fun h => h.mono hsub

/-- What the run did before `tr'` neither reached the network nor read a line. -/
def Quiet (tr tr' : Trace) : Prop := ∃ before, tr = before ++ tr' ∧ ∀ ev ∈ before, ev.effect.Local

lemma Quiet.subset (h : Quiet tr tr') : tr' ⊆ tr := by
  obtain ⟨before, rfl, -⟩ := h
  exact List.subset_append_right _ _

lemma Quiet.seen (h : Quiet tr tr') :
    exchanges tr = exchanges tr' ∧ linesRead tr = linesRead tr' := by
  obtain ⟨before, rfl, hlocal⟩ := h
  rw [exchanges_append, linesRead_append, exchanges_of_local hlocal, linesRead_of_local hlocal]
  exact ⟨rfl, rfl⟩

lemma Quiet.trans {tr'' : Trace} (h : Quiet tr tr') (h' : Quiet tr' tr'') : Quiet tr tr'' := by
  obtain ⟨before, rfl, hbefore⟩ := h
  obtain ⟨after, rfl, hafter⟩ := h'
  exact ⟨before ++ after, (List.append_assoc _ _ _).symm,
    List.forall_mem_append.mpr ⟨hbefore, hafter⟩⟩

lemma quiet_nil (h : ∀ ev ∈ tr, ev.effect.Local) : Quiet tr [] := ⟨tr, (List.append_nil _).symm, h⟩

/-- The script prints and does nothing else. -/
structure Prints (p : Script PUnit) : Prop where
  only : Only Effect.Local p
  panics : ∀ ⦃tr : Trace⦄ ⦃e : Stop⦄, Ends p tr (.error e) →
    StdPanics tr (.error e : Except Stop PUnit)

lemma prints_of_stops {p : Script PUnit} (honly : Only Effect.Local p)
    (hstops : ∀ answered reason, StdStops answered reason → Stops answered reason p) :
    Prints p where
  only := honly
  panics tr e h := by
    refine hstops (· ∈ tr) (fun e => StdPanics tr (.error e : Except Stop PUnit)) ?_ h
      fun _ hev => hev
    exact fun c text hev => ⟨c, text, rfl, hev⟩

lemma prints_line (stream : Stream) (text : String) : Prints (stdCall (.line stream text)) :=
  prints_of_stops only_stdCall fun _ _ hstd => stops_stdCall hstd

lemma prints_print (label : String) : Prints (stdCall (.print label)) :=
  prints_of_stops only_stdCall fun _ _ hstd => stops_stdCall hstd

lemma prints_printAll (stream : Stream) (lines : List String) : Prints (printAll stream lines) :=
  prints_of_stops (only_printAll lines) fun _ _ hstd => stops_printAll hstd lines

/-- What is printed is followed by the rest, unless it was refused. -/
lemma Prints.ends_bind {p : Script PUnit} (hp : Prints p) {f : PUnit → Script β}
    (h : Ends (p >>= f) tr o) :
    (∃ tr', Quiet tr tr' ∧ Ends (f ()) tr' o) ∨ Quiet tr [] ∧ StdPanics tr o := by
  rcases Script.ends_bind_iff.mp h with ⟨e, h, ho⟩ | ⟨tr₁, u, tr₂, h₁, h₂, htr⟩
  · obtain ⟨c, text, he, hev⟩ := hp.panics h
    rw [ho, Except.error.inj he]
    exact .inr ⟨quiet_nil (h.only hp.only), c, text, rfl, hev⟩
  · exact .inl ⟨tr₂, ⟨tr₁, htr, h₁.only hp.only⟩, h₂⟩

/-- What is printed before a program leaves makes no difference to how it leaves. -/
lemma Prints.leaves_bind {p : Script PUnit} (hp : Prints p) {f : PUnit → Script ExitCode}
    {code : ExitCode} {o : Except Stop ExitCode}
    (hf : ∀ tr', Ends (f ()) tr' o → Quiet tr' [] ∧ Leaves tr' o code)
    (h : Ends (p >>= f) tr o) : Quiet tr [] ∧ Leaves tr o code := by
  rcases hp.ends_bind h with ⟨tr', hquiet, h⟩ | ⟨hquiet, hpanics⟩
  · obtain ⟨hquiet', hleaves⟩ := hf tr' h
    exact ⟨hquiet.trans hquiet', hleaves.mono hquiet.subset⟩
  · exact ⟨hquiet, .inr hpanics⟩

lemma Prints.leaves {p : Script PUnit} (hp : Prints p) {code : ExitCode}
    {o : Except Stop ExitCode} (h : Ends (do p; return code) tr o) :
    Quiet tr [] ∧ Leaves tr o code := by
  refine hp.leaves_bind (fun tr' h => ?_) h
  obtain ⟨rfl, rfl⟩ := Script.ends_pure_iff.mp h
  exact ⟨quiet_nil (by simp), .inl rfl⟩

/-- What follows a result that may be an error: the program goes on, or complains and leaves. -/
lemma ends_orExit_bind {f : α → Script ExitCode} {o : Except Stop ExitCode}
    (h : Ends (orExit x say >>= f) tr o) : (∃ a, x = .ok a ∧ Ends (f a) tr o) ∨
    ∃ e, x = .error e ∧ Quiet tr [] ∧ Leaves tr o .failure := by
  cases x with
  | ok a =>
    rw [orExit, pure_bind] at h
    exact .inl ⟨a, rfl, h⟩
  | error e =>
    rw [orExit, bind_assoc] at h
    rcases (prints_printAll _ _).ends_bind h with ⟨tr', hquiet, h⟩ | ⟨hquiet, hpanics⟩
    · obtain ⟨rfl, rfl⟩ := Script.ends_throw_bind_iff.mp h
      exact .inr ⟨e, rfl, hquiet, .inl rfl⟩
    · exact .inr ⟨e, rfl, hquiet, .inr hpanics⟩

/-- The program put this line on the standard output, or began to. -/
def Shown (tr : Trace) (text : String) : Prop := ∃ r, ⟨.std (.line .stdout text), r⟩ ∈ tr

/-- Of some lines nothing else is shown, and all of them when the printing comes to its end. -/
lemma shown_printAll {lines : List String} {o : Except Stop PUnit}
    (h : Ends (printAll .stdout lines) tr o) : (∀ text, Shown tr text → text ∈ lines) ∧
      (o = .ok () → ∀ text ∈ lines, Shown tr text) := by
  induction lines generalizing tr with
  | nil =>
    obtain ⟨rfl, -⟩ := Script.ends_pure_iff.mp h
    simp [Shown]
  | cons line lines ih =>
    rcases ends_stdCall_bind_iff.mp h with ⟨u, tr', htr, h⟩ | ⟨text, htr, ho⟩
    · obtain ⟨honly, hall⟩ := ih h
      rw [htr]
      refine ⟨fun text htext => ?_, fun ho => List.forall_mem_cons.mpr ⟨?_, fun text htext => ?_⟩⟩
      · obtain ⟨r, hr⟩ := htext
        rcases List.mem_cons.mp hr with heq | hr
        · cases heq
          exact List.mem_cons_self
        · exact List.mem_cons_of_mem _ (honly text ⟨r, hr⟩)
      · exact ⟨_, List.mem_cons_self⟩
      · obtain ⟨r, hr⟩ := hall ho text htext
        exact ⟨r, List.mem_cons_of_mem _ hr⟩
    · rw [htr, ho]
      refine ⟨fun text' htext => ?_, nofun⟩
      obtain ⟨r, hr⟩ := htext
      cases List.mem_singleton.mp hr
      exact List.mem_cons_self

/-- A client for an endpoint, under the next id. -/
structure Connection where
  url : String
  nextId : UInt64

def Connection.new (url : String) : Connection := ⟨url, 1⟩

def Connection.call (texts : TextForms) (rpc : Connection) (m : Method) :
    Script (Except RpcError m.Answer × Connection) := do
  let response ← ask (Effect.send rpc.url (m.request rpc.nextId))
  return (m.answer texts response, { rpc with nextId := rpc.nextId + 1 })

/-- Calling a method is one exchange. -/
lemma ends_call_bind_iff {texts : TextForms} {rpc : Connection} {m : Method}
    {f : Except RpcError m.Answer × Connection → Script β} :
    Ends (rpc.call texts m >>= f) tr o ↔ ∃ response tr',
      tr = ⟨.send rpc.url (m.request rpc.nextId), response⟩ :: tr' ∧
      Ends (f (m.answer texts response, { rpc with nextId := rpc.nextId + 1 })) tr' o := by
  rw [Connection.call, bind_assoc, Script.ends_ask_bind_iff]
  simp only [pure_bind]

/-! ### Text -/

/-- The characters with the Unicode property `White_Space`. -/
def isWhitespace (c : Char) : Bool :=
  c.toNat ∈ [9, 10, 11, 12, 13, 32, 0x85, 0xa0, 0x1680, 0x2000, 0x2001, 0x2002, 0x2003, 0x2004,
    0x2005, 0x2006, 0x2007, 0x2008, 0x2009, 0x200a, 0x2028, 0x2029, 0x202f, 0x205f, 0x3000]

def trimmed (cs : List Char) : List Char :=
  ((cs.dropWhile isWhitespace).reverse.dropWhile isWhitespace).reverse

/-- `s.trim()`. -/
def trim (s : String) : String := .ofList (trimmed s.toList)

/-- Whitespace around a text that neither begins nor ends with any is taken off again. -/
lemma trimmed_padded {before cs after : List Char} (hbefore : ∀ c ∈ before, isWhitespace c)
    (hafter : ∀ c ∈ after, isWhitespace c) (hcs : ∀ c ∈ cs, isWhitespace c = false) :
    trimmed (before ++ cs ++ after) = cs := by
  have hdrop {cs : List Char} (h : ∀ c ∈ cs, isWhitespace c = false) :
      cs.dropWhile isWhitespace = cs := by
    cases cs with
    | nil => rfl
    | cons c cs => rw [List.dropWhile_cons_of_neg (by simp [h c List.mem_cons_self])]
  have hback : ∀ c ∈ after.reverse, isWhitespace c := fun c hc => hafter c (List.mem_reverse.mp hc)
  rw [trimmed, List.append_assoc, List.dropWhile_append_of_pos hbefore]
  cases cs with
  | nil =>
    rw [List.nil_append, List.dropWhile_eq_nil_iff.mpr hafter]
    rfl
  | cons c cs =>
    rw [List.cons_append, List.dropWhile_cons_of_neg (by simp [hcs c List.mem_cons_self]),
      ← List.cons_append, List.reverse_append, List.dropWhile_append_of_pos hback,
      hdrop fun d hd => hcs d (List.mem_reverse.mp hd), List.reverse_reverse]

/-- The text with whitespace around it. -/
def Padded (text line : String) : Prop :=
  ∃ before after, line.toList = before ++ text.toList ++ after ∧
    (∀ c ∈ before, isWhitespace c) ∧ ∀ c ∈ after, isWhitespace c

lemma padded_self (text : String) : Padded text text := ⟨[], [], by simp, by simp, by simp⟩

lemma Padded.trim_eq {text line : String} (h : Padded text line)
    (htext : ∀ c ∈ text.toList, isWhitespace c = false) : trim line = text := by
  obtain ⟨before, after, hline, hbefore, hafter⟩ := h
  rw [trim, hline, trimmed_padded hbefore hafter htext, String.ofList_toList]

/-- `prompt_line`. -/
def promptLine (label : String) : Script (Except String String) := do
  stdCall (.print label)
  match ← ask Effect.flush with
  | .error e => return .error e
  | .ok _ =>
    match ← ask Effect.readLine with
    | .error e => return .error e
    | .ok line => return .ok (trim line)

/-- A prompt reads one line, or reports why it could not, unless it was refused. -/
lemma ends_promptLine_bind {label : String} {f : Except String String → Script β}
    (h : Ends (promptLine label >>= f) tr o) :
    (Quiet tr [] ∧ StdPanics tr o) ∨
    ∃ r tr', Ends (f r) tr' o ∧ tr' ⊆ tr ∧ exchanges tr = exchanges tr' ∧
      ((∃ e, r = .error e ∧ linesRead tr = linesRead tr') ∨
        ∃ text, r = .ok (trim text) ∧ linesRead tr = text :: linesRead tr') := by
  rw [promptLine, bind_assoc] at h
  rcases (prints_print label).ends_bind h with ⟨tr₁, hquiet, h⟩ | h
  · obtain ⟨hexchanges, hlines⟩ := hquiet.seen
    have hsub := hquiet.subset
    rw [bind_assoc] at h
    obtain ⟨flushed, tr₂, htr₁, h⟩ := Script.ends_ask_bind_iff.mp h
    rw [hexchanges, hlines, htr₁]
    replace hsub : tr₂ ⊆ tr := fun ev hev => hsub (htr₁ ▸ List.mem_cons_of_mem _ hev)
    cases flushed with
    | error e =>
      rw [pure_bind] at h
      exact .inr ⟨_, tr₂, h, hsub, rfl, .inl ⟨e, rfl, rfl⟩⟩
    | ok u =>
      rw [bind_assoc] at h
      obtain ⟨read, tr₃, htr₂, h⟩ := Script.ends_ask_bind_iff.mp h
      rw [htr₂]
      have hsub₃ : tr₃ ⊆ tr := fun ev hev => hsub (htr₂ ▸ List.mem_cons_of_mem _ hev)
      cases read with
      | error e =>
        rw [pure_bind] at h
        exact .inr ⟨_, tr₃, h, hsub₃, rfl, .inl ⟨e, rfl, rfl⟩⟩
      | ok text =>
        rw [pure_bind] at h
        exact .inr ⟨_, tr₃, h, hsub₃, rfl, .inr ⟨text, rfl, rfl⟩⟩
  · exact .inl h

/-- What the crates outside make of texts, and the texts of their errors. -/
structure HostTexts extends TextForms where
  hexError : Hex.FromHexError → String
  decodeError : DecodeError → String
  /-- `serde_json::from_str::<Vec<u8>>` -/
  jsonBytes : String → Except String Bytes
  /-- how a double is printed -/
  floatText : UInt64 → String

/-- A seed and the pubkey it has among the multiples of the base point. -/
def sampleKeypair : Bytes := (LittleEndian.toLe 32 5).toList ++ (LittleEndian.toLe 32 5).toList

def sampleKeypairFile : String :=
  "[" ++ ",".intercalate (sampleKeypair.map fun b => toString b.toNat) ++ "]"

/-- Of keypair files only the sample is read. -/
def HostTexts.sample : HostTexts where
  toTextForms := sampleTexts
  hexError _ := "Odd number of digits"
  decodeError _ := "unexpected end of file"
  jsonBytes contents :=
    if contents = sampleKeypairFile then .ok sampleKeypair else .error "expected value"
  floatText _ := "0.0"

/-- What a machine answers on which the sample keypair is the only file, every password is `1` as
a scalar and the network is down. -/
def sampleAnswer (argv : List String) : (e : Effect) → e.Answer
  | .std .args => .ok argv
  | .std (.random len) => .ok (LittleEndian.toLe len 1)
  | .std (.line _ _) => .ok ()
  | .std (.print _) => .ok ()
  | .promptPassword _ => .ok (Hex.encode (LittleEndian.toLe 32 1).toList)
  | .readFile _ => .ok sampleKeypairFile
  | .flush => .ok ()
  | .readLine => .ok "yes\n"
  | .send _ _ => .error (.transport "connection refused")

lemma not_stdPanics_sample {argv : List String}
    (h : ∀ ev ∈ tr, ev.answer = sampleAnswer argv ev.effect) : ¬StdPanics tr o := by
  rintro ⟨c, text, -, hev⟩
  have hanswer : .error text = sampleAnswer argv (.std c) := h _ hev
  cases c <;> cases hanswer

def rpcErrorText : RpcError → String
  | .transport msg => s!"transport error: {msg}"
  | .rpc code message => s!"RPC error {code}: {message}"
  | .decode msg => s!"unexpected response shape: {msg}"

def signErrorText : SignError → String
  | .invalidLength len => s!"expected {keypairBytes} bytes, got {len}"
  | .publicKeyMismatch => "stored public key does not match the key derived from the secret seed"

def signTransactionErrorText : Envelope.SignTransactionError → String
  | .notARequiredSigner => "pubkey is not one of this transaction's required signers"

/-! ### Flags -/

/-- The loop over the arguments, a flag and its value at a time. -/
def parsePairs {F : Type} (set : F → String → String → Except String F) (flags : F) :
    List String → Except String F
  | [] => .ok flags
  | [flag] => .error s!"{flag} needs a value"
  | flag :: value :: rest => do parsePairs set (← set flags flag value) rest

/-- `flag.ok_or("..")?`. -/
def present (flag : Option α) (msg : String) : Except String α :=
  match flag with
  | some a => .ok a
  | none => .error msg

/-- Flags and values, as they stand among the arguments. -/
def flat (pairs : List (String × String)) : List String := pairs.flatMap fun p => [p.1, p.2]

lemma parsePairs_eq_ok_iff {F : Type} {set : F → String → String → Except String F} {init flags : F}
    {argv : List String} : parsePairs set init argv = .ok flags ↔
      ∃ pairs, argv = flat pairs ∧ pairs.foldlM (fun f p => set f p.1 p.2) init = .ok flags := by
  induction init, argv using parsePairs.induct with
  | case1 init =>
    refine ⟨fun h => ⟨[], rfl, h⟩, fun h => ?_⟩
    obtain ⟨pairs, hargv, h⟩ := h
    cases pairs with
    | nil => exact h
    | cons p pairs => cases hargv
  | case2 init flag =>
    refine ⟨fun h => ?_, fun h => ?_⟩
    · cases h
    · obtain ⟨pairs, hargv, -⟩ := h
      cases pairs with
      | nil => cases hargv
      | cons p pairs => cases hargv
  | case3 init flag value rest ih =>
    rw [parsePairs, bind_eq_ok]
    refine ⟨fun h => ?_, fun h => ?_⟩
    · obtain ⟨next, hset, h⟩ := h
      obtain ⟨pairs, rfl, hpairs⟩ := (ih next).mp h
      exact ⟨(flag, value) :: pairs, rfl, bind_eq_ok.mpr ⟨next, hset, hpairs⟩⟩
    · obtain ⟨pairs, hargv, h⟩ := h
      cases pairs with
      | nil => cases hargv
      | cons p pairs =>
        obtain ⟨next, hset, h⟩ := bind_eq_ok.mp h
        cases hargv
        exact ⟨next, hset, (ih next).mpr ⟨pairs, rfl, h⟩⟩

/-- The last value given to a flag. -/
def lastValue (flag : String) (pairs : List (String × String)) : Option String :=
  ((pairs.filter fun p => p.1 = flag).getLast?).map (·.2)

section
variable {F : Type} {set : F → String → String → Except String F} {init flags : F}
  {pairs : List (String × String)}

lemma lastValue_append_singleton (flag : String) (pairs : List (String × String))
    (p : String × String) : lastValue flag (pairs ++ [p]) =
      if p.1 = flag then some p.2 else lastValue flag pairs := by
  by_cases h : p.1 = flag <;> simp [lastValue, h]

/-- A field that only its flag sets holds what the flag's last value reads as. -/
lemma foldlM_field (flag : String) (get : F → Option α) (read : String → Option α)
    (hset : ∀ f (p : String × String) f', set f p.1 p.2 = .ok f' →
      get f' = if p.1 = flag then read p.2 else get f)
    (hinit : get init = none) (h : pairs.foldlM (fun f p => set f p.1 p.2) init = .ok flags) :
    get flags = (lastValue flag pairs).bind read := by
  induction pairs using List.reverseRecOn generalizing flags with
  | nil =>
    obtain rfl := Except.ok.inj h
    exact hinit
  | append_singleton pairs p ih =>
    rw [List.foldlM_append] at h
    obtain ⟨next, hnext, h⟩ := bind_eq_ok.mp h
    simp only [List.foldlM_cons, List.foldlM_nil, bind_pure] at h
    rw [hset next p flags h, lastValue_append_singleton, ih hnext]
    split_ifs <;> rfl

/-- When what a pair needs does not depend on the pairs before, all is accepted if each is. -/
lemma foldlM_accepts_iff {accepted : String × String → Prop}
    (hset : ∀ f p, (∃ f', set f p.1 p.2 = .ok f') ↔ accepted p) :
    (∃ flags, pairs.foldlM (fun f p => set f p.1 p.2) init = .ok flags) ↔
      ∀ p ∈ pairs, accepted p := by
  induction pairs generalizing init with
  | nil => simp [pure, Except.pure]
  | cons p pairs ih =>
    simp only [List.foldlM_cons, List.forall_mem_cons, bind_eq_ok]
    refine ⟨fun h => ?_, fun h => ?_⟩
    · obtain ⟨flags, next, hnext, h⟩ := h
      exact ⟨(hset init p).mp ⟨next, hnext⟩, ih.mp ⟨flags, h⟩⟩
    · obtain ⟨next, hnext⟩ := (hset init p).mpr h.1
      obtain ⟨flags, hflags⟩ := ih.mpr h.2
      exact ⟨flags, next, hnext, hflags⟩

end

/-! ### Keypair files -/

section
variable {P : Type} [AddCommGroup P] {E : Ed25519 P}

/-- A seed and its pubkey are a keypair's bytes. -/
lemma fromBytes_keypair (kp : Keypair E) :
    Keypair.fromBytes E (kp.signingKey.toList ++ kp.pubkey.bytes.toList) = .ok kp := by
  obtain ⟨⟨seed, hseed⟩, ⟨pubkey⟩, hpubkey⟩ := kp
  obtain rfl : pubkey = (verifyingKey E ⟨seed, hseed⟩).compressed := hpubkey
  have htake : (seed ++ (verifyingKey E ⟨seed, hseed⟩).compressed.toList).take 32 = seed :=
    List.take_left' hseed
  have hdrop : (seed ++ (verifyingKey E ⟨seed, hseed⟩).compressed.toList).drop 32 =
      (verifyingKey E ⟨seed, hseed⟩).compressed.toList :=
    List.drop_left' hseed
  have hlen : (seed ++ (verifyingKey E ⟨seed, hseed⟩).compressed.toList).length = keypairBytes := by
    rw [List.length_append, hseed, List.Vector.toList_length]
    rfl
  change Keypair.fromBytes E (seed ++ _) = _
  rw [Keypair.fromBytes, dif_neg (not_not.mpr hlen)]
  simp only [htake, hdrop, ne_eq, not_true_eq_false, if_false]

end

section
variable (texts : HostTexts) {P : Type} [AddCommGroup P] (E : Ed25519 P)

def loadKeypairFile (path : String) : Script (Except String (Keypair E)) := do
  match ← readFile path with
  | .error e => return .error s!"could not read {path}: {e}"
  | .ok contents =>
    match texts.jsonBytes contents with
    | .error e => return .error s!"{path} is not a solana-keygen JSON keypair file: {e}"
    | .ok bytes =>
      return (Keypair.fromBytes E bytes).mapError fun e => s!"{path}: {signErrorText e}"

lemma only_loadKeypairFile (path : String) : Only Effect.Local (loadKeypairFile texts E path) := by
  refine Script.only_bind (Script.only_ask trivial) fun r => ?_
  cases r with
  | error e => exact Script.only_pure _
  | ok contents =>
    change Only _ (match texts.jsonBytes contents with | .error e => _ | .ok bytes => _)
    cases texts.jsonBytes contents with
    | error e => exact Script.only_pure _
    | ok bytes => exact Script.only_pure _

/-- The file was read in this run and holds this keypair. -/
def LoadedFrom (tr : Trace) (path : String) (kp : Keypair E) : Prop :=
  ∃ contents bytes, ⟨.readFile path, .ok contents⟩ ∈ tr ∧
    texts.jsonBytes contents = .ok bytes ∧ Keypair.fromBytes E bytes = .ok kp

lemma loadKeypairFile_ok {path : String} {kp : Keypair E}
    (h : Ends (loadKeypairFile texts E path) tr (.ok (.ok kp))) :
    LoadedFrom texts E tr path kp := by
  obtain ⟨r, tr₁, htr, h⟩ := Script.ends_ask_bind_iff.mp h
  cases r with
  | error e => cases (Script.ends_pure_iff.mp h).2
  | ok contents =>
    cases hjson : texts.jsonBytes contents with
    | error e =>
      simp only [hjson] at h
      cases (Script.ends_pure_iff.mp h).2
    | ok bytes =>
      simp only [hjson] at h
      have hkp := Except.ok.inj (Script.ends_pure_iff.mp h).2
      rw [htr]
      exact ⟨contents, bytes, List.mem_cons_self, hjson, mapError_eq_ok_iff.mp hkp.symm⟩

variable {texts E} in
lemma LoadedFrom.mono {tr tr' : Trace} {path : String} {kp : Keypair E}
    (h : LoadedFrom texts E tr path kp) (hsub : tr ⊆ tr') : LoadedFrom texts E tr' path kp := by
  obtain ⟨contents, bytes, hread, hkp⟩ := h
  exact ⟨contents, bytes, hsub hread, hkp⟩

variable {answered : Event Effect Effect.Answer → Prop} {reason : Stop → Prop}

variable (answered) in
/-- The file, whenever it is read, holds this keypair. -/
def FileHolds (path : String) (kp : Keypair E) : Prop :=
  ∀ r, answered ⟨.readFile path, r⟩ → ∃ contents bytes, r = .ok contents ∧
    texts.jsonBytes contents = .ok bytes ∧ Keypair.fromBytes E bytes = .ok kp

lemma stops_loadKeypairFile (path : String) :
    Stops answered reason (loadKeypairFile texts E path) := by
  refine Script.stops_ask_bind fun r _ => ?_
  cases r with
  | error e => exact Script.stops_pure _
  | ok contents =>
    change Stops _ _ (match texts.jsonBytes contents with | .error e => _ | .ok bytes => _)
    cases texts.jsonBytes contents with
    | error e => exact Script.stops_pure _
    | ok bytes => exact Script.stops_pure _

lemma FileHolds.loaded {path : String} {kp : Keypair E} {r : Except String (Keypair E)}
    (h : FileHolds texts E answered path kp)
    (hload : Ends (loadKeypairFile texts E path) tr (.ok r))
    (hanswered : ∀ ev ∈ tr, answered ev) : r = .ok kp := by
  obtain ⟨read, tr₁, htr, hload⟩ := Script.ends_ask_bind_iff.mp hload
  rw [htr, List.forall_mem_cons] at hanswered
  obtain ⟨contents, bytes, hread, hbytes, hkp⟩ := h read hanswered.1
  simp only [hread, hbytes, hkp] at hload
  exact Except.ok.inj (Script.ends_pure_iff.mp hload).2

end

end SvmWasiCore.HostPrograms
