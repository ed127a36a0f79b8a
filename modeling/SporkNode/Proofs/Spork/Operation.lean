import SporkNode.Proofs.Spork.Manager
import SporkNode.Proofs.Spork.Message

/-!
A manager at work. Whatever peers, the operator and the disk do to it is an operation, and a run is
a list of these; what holds at the start and survives each operation holds after every run.
-/

namespace SporkNode.Spork

open Signature

inductive Operation
  | process (w : World) (peer : PeerId) (msg : Message)
  | sendAll (peer : PeerId)
  | update (w : World) (p : Parameter) (value : Int64)
  | setKey (text : String)
  | load
  /-- A new manager for the same network over the same store, which it then loads. -/
  | restart (limits : Limits)
  /-- The store fails from here on, or works again. -/
  | outage (fault? : Option StoreError)

inductive Reply
  | processed (outcome : Outcome)
  | sent (count : Nat)
  | updated (result : Except SporkError Message)
  | keySet (result : Except SporkError Unit)
  | loaded (count : Nat)
  | restarted (result : Except SporkError Nat)
  | done

namespace Manager

/-- If no new manager can be made, the old one stays. -/
def restart (m : Manager) (limits : Limits) : Step Manager (Except SporkError Nat) :=
  match start m.settings limits m.store with
  | .error e => ⟨m, .error e, []⟩
  | .ok fresh =>
    let loaded := fresh.load
    ⟨loaded.state, .ok loaded.reply, loaded.effects⟩

def perform [Scheme] (m : Manager) : Operation → Step Manager Reply
  | .process w peer msg =>
    let s := m.process w peer msg
    ⟨s.state, .processed s.reply, s.effects⟩
  | .sendAll peer =>
    let s := m.sendAll peer
    ⟨s.state, .sent s.reply, s.effects⟩
  | .update w p value =>
    let s := m.update w p value
    ⟨s.state, .updated s.reply, s.effects⟩
  | .setKey text =>
    let s := m.setKey text
    ⟨s.state, .keySet s.reply, s.effects⟩
  | .load =>
    let s := m.load
    ⟨s.state, .loaded s.reply, s.effects⟩
  | .restart limits =>
    let s := m.restart limits
    ⟨s.state, .restarted s.reply, s.effects⟩
  | .outage fault? => ⟨{ m with store := { m.store with fault? := fault? } }, .done, []⟩

def run [Scheme] (m : Manager) (ops : List Operation) : Manager :=
  ops.foldl (fun m op => (m.perform op).state) m

section

variable [Scheme]

@[simp] theorem run_nil (m : Manager) : m.run [] = m := rfl

@[simp] theorem run_cons (m : Manager) (op : Operation) (ops : List Operation) :
    m.run (op :: ops) = (m.perform op).state.run ops := rfl

/-- It is enough to look at the operations that the run is made of. -/
theorem run_invariant_of {P : Manager → Prop} {Q : Operation → Prop}
    (hstep : ∀ m op, Q op → P m → P (m.perform op).state) {m : Manager} (hm : P m)
    {ops : List Operation} (hops : ∀ op ∈ ops, Q op) : P (m.run ops) := by
  induction ops generalizing m with
  | nil =>
    rw [run_nil]
    exact hm
  | cons op ops ih =>
    rw [run_cons]
    exact ih (hstep m op (hops op List.mem_cons_self) hm) fun op' hop' =>
      hops op' (List.mem_cons_of_mem _ hop')

theorem run_invariant {P : Manager → Prop} (hstep : ∀ m op, P m → P (m.perform op).state)
    {m : Manager} (hm : P m) (ops : List Operation) : P (m.run ops) :=
  run_invariant_of (fun m op (_ : True) => hstep m op) hm fun _ _ => trivial

/-- The steps that a run is made of. -/
def steps (m : Manager) : List Operation → List (Step Manager Reply)
  | [] => []
  | op :: ops => m.perform op :: (m.perform op).state.steps ops

/-! ## What becomes of a manager -/

/-- All that an operation can make of a manager: the two maps and the store change together and by
one message, or what is stored is taken into the maps, or neither maps nor records change. -/
inductive Next (m : Manager) : Operation → Manager → Prop
  | kept {op : Operation} (governor : Governor) (signer? : Option Signer) :
      m.Next op { m with governor := governor, signer? := signer? }
  | held {op : Operation} (msg : Message) (governor : Governor) :
      m.Next op { m.holding msg with governor := governor }
  | loaded : m.Next .load m.load.state
  | restarted {limits : Limits} {fresh : Manager}
      (h : start m.settings limits m.store = .ok fresh) : m.Next (.restart limits) fresh.load.state
  | outage (fault? : Option StoreError) :
      m.Next (.outage fault?) { m with store := { m.store with fault? := fault? } }

theorem next_perform (m : Manager) (op : Operation) : m.Next op (m.perform op).state := by
  cases op with
  | process w peer msg =>
    show m.Next _ (m.process w peer msg).state
    rw [process_state]
    split
    · exact .held msg _
    · exact .kept m.governor m.signer?
  | sendAll peer => exact .kept m.governor m.signer?
  | update w p value =>
    show m.Next _ (m.update w p value).state
    rw [update_state]
    split
    · exact .kept m.governor m.signer?
    · exact .held _ m.governor
  | setKey text =>
    show m.Next _ (m.setKey text).state
    rw [setKey_state]
    split
    · exact .kept m.governor m.signer?
    · exact .kept m.governor (some _)
  | load => exact .loaded
  | restart limits =>
    show m.Next _ (m.restart limits).state
    unfold restart
    split
    · exact .kept m.governor m.signer?
    · exact .restarted (by assumption)
  | outage fault? => exact .outage fault?

end

/-! ## What outlasts new messages -/

/-- A property of the two maps that no message put into them takes away. -/
structure Lasting (P : Manager → Prop) : Prop where
  of_maps : ∀ {m m' : Manager}, P m → m'.active = m.active → m'.byHash = m.byHash → P m'
  insert : ∀ {m : Manager} (msg : Message), P m → P (m.insert msg)

namespace Lasting

variable {P : Manager → Prop} {m : Manager}

theorem withRecord (hP : Lasting P) (hm : P m) (p : Parameter) : P (m.withRecord p) := by
  unfold Manager.withRecord
  split
  · exact hP.insert _ hm
  · exact hm

theorem load (hP : Lasting P) (hm : P m) : P m.load.state := by
  rw [load_state]
  induction Parameter.all generalizing m with
  | nil => exact hm
  | cons p rest ih => exact ih (hP.withRecord hm p)

/-- Only a restart begins with empty maps, for which the property has to be shown anew. -/
theorem next (hP : Lasting P) {op : Operation} {m' : Manager} (hm : P m) (h : m.Next op m')
    (hfresh : ∀ limits fresh, op = .restart limits →
      start m.settings limits m.store = .ok fresh → P fresh) : P m' := by
  cases h with
  | kept => exact hP.of_maps hm rfl rfl
  | held msg => exact hP.of_maps (hP.insert msg hm) rfl rfl
  | loaded => exact hP.load hm
  | restarted h => exact hP.load (hfresh _ _ rfl h)
  | outage => exact hP.of_maps hm rfl rfl

theorem run [Scheme] (hP : Lasting P) (hm : P m) {ops : List Operation}
    (hops : ∀ op ∈ ops, ∀ limits, op ≠ .restart limits) : P (m.run ops) :=
  run_invariant_of (fun m op hop hm => hP.next hm (m.next_perform op)
    fun limits _ hrestart _ => absurd hrestart (hop limits)) hm hops

/-- What every fresh manager has is never lost. -/
theorem run_of_start [Scheme] (hP : Lasting P)
    (hstart : ∀ {settings limits store fresh}, start settings limits store = .ok fresh → P fresh)
    (hm : P m) (ops : List Operation) : P (m.run ops) :=
  run_invariant (fun m op hm => hP.next hm (m.next_perform op) fun _ _ _ h => hstart h) hm ops

end Lasting

end Manager

/-- The first manager of the open network. -/
def openManager : Manager :=
  ⟨openSettings, openAuthority, .new .default, .empty, none, ∅, ∅⟩

def openWorld : World := ⟨⟨1700000000, 0⟩, fun _ => none⟩

theorem start_open : Manager.start openSettings .default .empty = .ok openManager := by
  unfold Manager.start
  rw [ofSettings_open]
  rfl

theorem openManager_takes : openManager.takes openMessage = true := by
  unfold Manager.takes
  rw [show openManager.authority = openAuthority from rfl, openMessage_verifies]
  rfl

end SporkNode.Spork
