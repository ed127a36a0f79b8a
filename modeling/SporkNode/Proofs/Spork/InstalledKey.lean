import SporkNode.Proofs.Spork.Agreement
import SporkNode.Proofs.Spork.Durability

/-!
The key that a node signs with. It proved once, by a signature, that it is the authority's, and
each later signature is checked under the key itself before it is handed out. Neither check is the
authority's check of a later message; that one follows from the two, whatever the signature scheme.
A key that proves nothing is not installed and an update that is not signed is not begun.
-/

namespace SporkNode.Spork

open Signature

/-- There is no key, or it did not sign. -/
def SporkError.IsOfKey (e : SporkError) : Prop := e = .noSigningKey ∨ ∃ fault, e = .signing fault

/-- The message says what the change says, at the time that its clock shows, and `a` accepts it. -/
structure Message.Fulfils [Scheme] (msg : Message) (c : Change) (a : Authority) : Prop where
  verifies : msg.verifies a = true
  id : msg.id = c.parameter.id
  value : msg.value = c.value
  time : msg.time = c.time

section

variable [Scheme]

theorem Message.isOfKey_of_sign {m : Message} {s : Signer} {e : SporkError}
    (h : m.sign s = .error e) : e.IsOfKey := by
  unfold sign at h
  cases hs : s.sign m.signingText with
  | error e' =>
    rw [hs] at h
    cases h
    obtain ⟨fault, -, rfl⟩ := mapError_eq_error.1 hs
    exact .inr ⟨fault, rfl⟩
  | ok signature =>
    rw [hs] at h
    cases h

namespace Manager

variable {a : Authority} {m : Manager}

/-! ## Who the key speaks for -/

/-- A manager over a network with authority `a`, with a key of that authority if it has one. Nothing
is asked of what it holds or stores. -/
structure Keyed (a : Authority) (m : Manager) : Prop where
  settings : Authority.ofSettings m.settings = .ok a
  authority : m.authority = a
  signer : ∀ s, m.signer? = some s → s.SpeaksFor a

namespace Keyed

theorem of_start {settings : Settings} {limits : Limits} {store : Store}
    (ha : Authority.ofSettings settings = .ok a) (h : start settings limits store = .ok m) :
    m.Keyed a := by
  unfold start at h
  rw [ha] at h
  cases h
  exact ⟨ha, rfl, nofun⟩

/-- The maps, the store and the governor have no part in it. -/
theorem congr (hm : m.Keyed a) {m' : Manager} (hsettings : m'.settings = m.settings)
    (hauthority : m'.authority = m.authority) (hsigner : m'.signer? = m.signer?) : m'.Keyed a := by
  refine ⟨?_, hauthority.trans hm.authority, ?_⟩
  · rw [hsettings]
    exact hm.settings
  · rw [hsigner]
    exact hm.signer

theorem setKey (hm : m.Keyed a) (text : String) : (m.setKey text).state.Keyed a := by
  rw [setKey_state]
  split
  · exact hm
  · rename_i s hproven
    refine ⟨hm.settings, hm.authority, ?_⟩
    rintro _ ⟨⟩
    exact speaksFor_of_provenSigner hm.settings hm.authority hproven

theorem load (hm : m.Keyed a) : m.load.state.Keyed a := by
  rw [load_state]
  induction Parameter.all generalizing m with
  | nil => exact hm
  | cons p rest ih =>
    apply ih
    unfold withRecord
    split
    · exact hm.congr rfl rfl rfl
    · exact hm

/-- A new manager has no key. -/
theorem restart (hm : m.Keyed a) (limits : Limits) : (m.restart limits).state.Keyed a := by
  unfold Manager.restart
  split
  · exact hm
  · rename_i fresh h
    exact (of_start hm.settings h).load

theorem perform (hm : m.Keyed a) (op : Operation) : (m.perform op).state.Keyed a := by
  cases op with
  | process w peer msg =>
    show (m.process w peer msg).state.Keyed a
    rw [process_state]
    split
    · exact hm.congr rfl rfl rfl
    · exact hm
  | sendAll peer => exact hm
  | update w p value =>
    show (m.update w p value).state.Keyed a
    rw [update_state]
    split
    · exact hm
    · exact hm.congr rfl rfl rfl
  | setKey text => exact hm.setKey text
  | load => exact hm.load
  | restart limits => exact hm.restart limits
  | outage fault? => exact hm.congr rfl rfl rfl

theorem run (hm : m.Keyed a) (ops : List Operation) : (m.run ops).Keyed a :=
  run_invariant (fun _ op hm => hm.perform op) hm ops

theorem signedUpdate (hm : m.Keyed a) {c : Change} {msg : Message}
    (h : m.signedUpdate c.world c.parameter c.value = .ok msg) : msg.Fulfils c a := by
  obtain ⟨hid, hvalue, htime⟩ := signedUpdate_eq_ok h
  refine ⟨?_, hid, hvalue, htime⟩
  unfold Manager.signedUpdate at h
  split at h
  · cases h
  · rename_i s hs
    exact Message.verifies_of_sign (hm.signer s hs) h

end Keyed

/-! ## What becomes of an update -/

theorem isOfKey_of_signedUpdate {w : World} {p : Parameter} {value : Int64} {e : SporkError}
    (h : m.signedUpdate w p value = .error e) : e.IsOfKey := by
  unfold signedUpdate at h
  split at h
  · cases h
    exact .inl rfl
  · exact Message.isOfKey_of_sign h

/-- An update fails for want of a signature before anything happens, or it signs and puts in force
what it signed. -/
theorem update_cases (m : Manager) (w : World) (p : Parameter) (value : Int64) :
    (∃ e, e.IsOfKey ∧ m.update w p value = ⟨m, .error e, []⟩) ∨
    ∃ msg, m.signedUpdate w p value = .ok msg ∧ (m.update w p value).state = m.holding msg ∧
      ReportsOf msg (m.update w p value).reply := by
  cases h : m.signedUpdate w p value with
  | error e => exact .inl ⟨e, isOfKey_of_signedUpdate h, by rw [update_eq, h]⟩
  | ok msg => exact .inr ⟨msg, rfl, by rw [update_state, h], reportsOf_update h⟩

theorem update_of_isOfKey {w : World} {p : Parameter} {value : Int64} {e : SporkError}
    (he : e.IsOfKey) (h : (m.update w p value).reply = .error e) :
    m.update w p value = ⟨m, .error e, []⟩ := by
  rcases m.update_cases w p value with ⟨e', -, heq⟩ | ⟨msg, -, -, hreply | ⟨fault, hreply⟩⟩
  · rw [heq] at h
    cases h
    exact heq
  · rw [hreply] at h
    cases h
  · rw [hreply] at h
    cases h
    rcases he with he | ⟨fault', he⟩ <;> cases he

theorem setKey_of_error {text : String} {e : SporkError} (h : (m.setKey text).reply = .error e) :
    m.setKey text = ⟨m, .error e, []⟩ := by
  rw [setKey_eq] at h ⊢
  split at h
  · cases h
    rfl
  · cases h

/-- In any run of a manager over any network and store, under any scheme. Once a key is taken, every
later update either fails for want of a signature, and that is all that happens, or has one message,
which says what was asked for and which the manager's authority accepts: this is what is put in
force and, if it could be stored, what is answered. A key that is not taken, like an update that
could not be signed, changes nothing and has no effects. -/
theorem installed_key_accepted {settings : Settings} {limits : Limits} {store : Store}
    {fresh : Manager} (h : start settings limits store = .ok fresh) (before : List Operation)
    (text : String) :
    let m := fresh.run before
    ((m.setKey text).reply = .ok () →
      (∃ signer, (m.setKey text).state = { m with signer? := some signer }) ∧
      ∀ (after : List Operation) (c : Change),
        let later := (m.setKey text).state.run after
        let updated := later.update c.world c.parameter c.value
        later.authority = m.authority ∧
        ((∃ e, e.IsOfKey ∧ updated = ⟨later, .error e, []⟩) ∨
          ∃ msg, msg.Fulfils c m.authority ∧ updated.state = later.holding msg ∧
            ReportsOf msg updated.reply)) ∧
    (∀ e, (m.setKey text).reply = .error e → m.setKey text = ⟨m, .error e, []⟩) ∧
    ∀ (c : Change) (e : SporkError), e.IsOfKey →
      (m.update c.world c.parameter c.value).reply = .error e →
      m.update c.world c.parameter c.value = ⟨m, .error e, []⟩ := by
  intro m
  obtain ⟨ha, -⟩ := authority_of_start h
  have hm : m.Keyed fresh.authority := (Keyed.of_start ha h).run before
  refine ⟨?_, fun e => setKey_of_error, fun c e => update_of_isOfKey⟩
  intro htaken
  obtain ⟨signer, -, hsigner⟩ := setKey_eq_ok htaken
  refine ⟨⟨signer, hsigner⟩, ?_⟩
  intro after c later updated
  have hlater : later.Keyed fresh.authority := (hm.setKey text).run after
  refine ⟨hlater.authority.trans hm.authority.symm, ?_⟩
  rcases later.update_cases c.world c.parameter c.value with hfailed | ⟨msg, hmsg, hdone⟩
  · exact .inl hfailed
  · rw [hm.authority]
    exact .inr ⟨msg, hlater.signedUpdate hmsg, hdone⟩

end Manager

end

/-- The open network's key is taken; after a peer's message for the same parameter an update in the
second of that message still goes through. -/
theorem installed_key_accepted_open :
    Manager.start openSettings .default .empty = .ok openManager ∧
    (openManager.setKey openSecret).reply = .ok () ∧
    ∃ msg : Message, msg.verifies openAuthority = true ∧ msg.value = 7 ∧
      (openHolder.update openSecond .instantSendMaxValue 7).state.message? 10004 = some msg := by
  refine ⟨start_open, setKey_open_reply, ?_⟩
  have hrun : ∀ (m : Manager) (text : String) (ops : List Operation),
      (m.setKey text).state.run ops = m.run (.setKey text :: ops) := fun _ _ _ => rfl
  obtain ⟨-, hlater⟩ :=
    (Manager.installed_key_accepted start_open [] openSecret).1 setKey_open_reply
  have hupdate := hlater [.process openWorld ⟨1⟩ openMessage] ⟨openSecond, .instantSendMaxValue, 7⟩
  dsimp only at hupdate
  rw [Manager.run_nil, hrun, ← openHolder] at hupdate
  rcases hupdate.2 with ⟨e, -, hfailed⟩ | ⟨msg, hmsg, hstate, -⟩
  · -- the key does sign, and then there is something to relay
    obtain ⟨rival, hrival⟩ := isOk_iff.1 openSigner_signs_rival
    have hsigned : openHolder.signedUpdate openSecond .instantSendMaxValue 7 = .ok rival := by
      rw [Manager.signedUpdate_eq openHolder_signer]
      exact hrival
    rw [Manager.update_eq, hsigned] at hfailed
    exact absurd (congrArg Step.effects hfailed) (List.cons_ne_nil _ _)
  · refine ⟨msg, hmsg.verifies, hmsg.value, ?_⟩
    rw [hstate, Manager.message?_holding, hmsg.id]
    rfl

end SporkNode.Spork
