import RpcDaemon.Command.Locks
import RpcDaemon.Proofs.Command.Answer

/-!
# Which commands are run

A command is run if the table has it, the wallet that it may need is loaded, and no warning stands in
its way; it is run once, with the parameters of the call. Otherwise the first of these that fails
tells the error, and nothing is run. The locks that a command is run under make no difference to
that. Main statement: `dispatch_policy`.
-/

namespace RpcDaemon

/-- The command without the flag for threads. -/
def Command.unthreaded (c : Command) : Command :=
  { c with flags := { c.flags with threadSafe := false } }

namespace Locks

/-- The locks that a call may need are free, poisoned or not. -/
def Free (l : Locks) (hasWallet : Bool) : Prop :=
  l.chain.held = false ∧ (hasWallet = true → l.wallet.held = false)

/-- Locks that are free are taken and given back as they were; for any other locks one waits. -/
theorem take?_cases (l : Locks) (hasWallet : Bool) :
    (∃ taken, l.take? hasWallet = some taken ∧ taken.giveBack hasWallet = l) ∨
      (l.take? hasWallet = none ∧ ¬ l.Free hasWallet) := by
  obtain ⟨⟨chainHeld, chainPoisoned⟩, ⟨walletHeld, walletPoisoned⟩⟩ := l
  cases chainHeld with
  | true => exact Or.inr ⟨rfl, fun h => Bool.noConfusion h.1⟩
  | false =>
    cases hasWallet with
    | false => exact Or.inl ⟨_, rfl, rfl⟩
    | true =>
      cases walletHeld with
      | true => exact Or.inr ⟨rfl, fun h => Bool.noConfusion (h.2 rfl)⟩
      | false => exact Or.inl ⟨_, rfl, rfl⟩

end Locks

namespace Table

variable {σ : Type}

/-! ## The policy -/

/-- The method may be run on the node: it is the name of the command `c`, the wallet is loaded if the
command needs one, and there is no warning, or none that counts for the command. -/
structure Permits (t : Table σ) (method : String) (n : Node) (c : Command) : Prop where
  /-- The table has the command. -/
  registered : t.lookup? method = some c
  /-- The command needs no wallet, or there is one. -/
  wallet : c.flags.wallet = false ∨ n.wallet.isSome = true
  /-- There is no warning, warnings do not count, or they do not count for the command. -/
  warning : n.warnings.text .rpc = "" ∨ n.safeModeDisabled = true ∨ c.flags.safe = true

/-- The method may not be run on the node; number and message of the error tell the first reason. -/
inductive Forbids (t : Table σ) (method : String) (n : Node) : Int32 → String → Prop
  /-- The table has no such command. -/
  | unknown (h : t.lookup? method = none) : Forbids t method n (-32601) "Method not found"
  /-- The command needs a wallet, and there is none. -/
  | noWallet {c : Command} (h : t.lookup? method = some c) (hneeds : c.flags.wallet = true)
      (hnone : n.wallet.isSome = false) :
      Forbids t method n (-32601) "Method not found (disabled)"
  /-- The command does not lack a wallet, but there is a warning that counts for it. -/
  | warned {c : Command} (h : t.lookup? method = some c)
      (hwallet : c.flags.wallet = false ∨ n.wallet.isSome = true)
      (hwarning : n.warnings.text .rpc ≠ "") (hcounts : n.safeModeDisabled = false)
      (hrisky : c.flags.safe = false) :
      Forbids t method n (-2) ("Safe mode: " ++ n.warnings.text .rpc)

variable {t : Table σ} {method : String} {n : Node} {c : Command} {code : Int32} {message : String}

/-- **Every method is either permitted or forbidden.** -/
theorem permits_or_forbids (t : Table σ) (method : String) (n : Node) :
    (∃ c, t.Permits method n c) ∨ ∃ code message, t.Forbids method n code message := by
  cases hc : t.lookup? method with
  | none => exact Or.inr ⟨_, _, .unknown hc⟩
  | some c =>
    by_cases hwallet : c.flags.wallet = false ∨ n.wallet.isSome = true
    · by_cases hwarning : n.warnings.text .rpc = "" ∨ n.safeModeDisabled = true ∨ c.flags.safe = true
      · exact Or.inl ⟨c, hc, hwallet, hwarning⟩
      · simp only [not_or, Bool.not_eq_true] at hwarning
        obtain ⟨htext, hcounts, hrisky⟩ := hwarning
        exact Or.inr ⟨_, _, .warned hc hwallet htext hcounts hrisky⟩
    · simp only [not_or, Bool.not_eq_true, Bool.not_eq_false] at hwallet
      exact Or.inr ⟨_, _, .noWallet hc hwallet.1 hwallet.2⟩

/-- A method that is forbidden is not permitted. -/
theorem Forbids.not_permits (h : t.Forbids method n code message) (c : Command) :
    ¬ t.Permits method n c := by
  rintro ⟨hc, hwallet, hwarning⟩
  cases h with
  | unknown h => cases h.symm.trans hc
  | noWallet h hneeds hnone =>
    cases h.symm.trans hc
    rw [hneeds, hnone] at hwallet
    simp at hwallet
  | warned h _ htext hcounts hrisky =>
    cases h.symm.trans hc
    rw [hcounts, hrisky] at hwarning
    simp [htext] at hwarning

/-- A method is permitted as one command only. -/
theorem Permits.unique {c' : Command} (h : t.Permits method n c) (h' : t.Permits method n c') :
    c' = c :=
  Option.some.inj (h'.registered.symm.trans h.registered)

/-- Two nodes are the same to the policy: both have a wallet or neither has, and the warning for
commands and the switch are the same. The warning for the status is not looked at. -/
structure SamePolicy (n n' : Node) : Prop where
  /-- Both nodes have a wallet, or neither has. -/
  wallet : n'.wallet.isSome = n.wallet.isSome
  /-- The warnings for commands are the same. -/
  warning : n'.warnings.text .rpc = n.warnings.text .rpc
  /-- Warnings count for both nodes, or for neither. -/
  switch : n'.safeModeDisabled = n.safeModeDisabled

theorem SamePolicy.symm {n n' : Node} (h : SamePolicy n n') : SamePolicy n' n :=
  ⟨h.wallet.symm, h.warning.symm, h.switch.symm⟩

theorem Permits.congr {n' : Node} (h : t.Permits method n c) (hn : SamePolicy n n') :
    t.Permits method n' c :=
  ⟨h.registered, hn.wallet ▸ h.wallet, by rw [hn.warning, hn.switch]; exact h.warning⟩

theorem Forbids.congr {n' : Node} (h : t.Forbids method n code message) (hn : SamePolicy n n') :
    t.Forbids method n' code message := by
  cases h with
  | unknown h => exact .unknown h
  | noWallet h hneeds hnone => exact .noWallet h hneeds (hn.wallet.trans hnone)
  | warned h hw htext hcounts hrisky =>
    rw [← hn.warning] at htext ⊢
    exact .warned h (hn.wallet ▸ hw) htext (hn.switch.trans hcounts) hrisky

/-! ## What is run -/

/-- A command that does not lack a wallet is refused for a warning only. -/
theorem refusal?_of_wallet (h : c.flags.wallet = false ∨ n.wallet.isSome = true) :
    refusal? c n =
      if !(n.warnings.text .rpc).isEmpty && !n.safeModeDisabled && !c.flags.safe then
        some (.forbiddenBySafeMode (n.warnings.text .rpc))
      else none := by
  have hwallet : (c.flags.wallet && n.wallet.isNone) = false := by
    rcases h with hw | hw <;> simp [hw]
  rw [refusal?, hwallet]
  rfl

/-- What is permitted is admitted. -/
theorem Permits.admits {w : World σ} (h : t.Permits method w.node c) : t.Admits method w c := by
  refine ⟨h.registered, ?_⟩
  rw [refusal?_of_wallet h.wallet]
  rcases h.warning with hw | hw | hw <;> simp [hw]

/-- **A method that is forbidden fails with the error that the policy tells**, and nothing happens. -/
theorem Forbids.execute {w : World σ} (h : t.Forbids method w.node code message)
    (params : List Json) : ∃ e : Rpc.Error, t.execute method params w = (.error e, w) ∧
      e.code.number = code ∧ e.message = message ∧ e.data = none := by
  cases h with
  | unknown h =>
    refine ⟨.methodNotFound, ?_, rfl, rfl, rfl⟩
    rw [Table.execute, h]
  | @noWallet c h hneeds hnone =>
    have hrefused : refusal? c w.node = some .methodDisabled := by
      simp [refusal?, hneeds, Option.isSome_eq_false_iff.mp hnone]
    refine ⟨.methodDisabled, ?_, rfl, rfl, rfl⟩
    rw [Table.execute, h]
    dsimp only
    rw [hrefused]
  | @warned c h hwallet htext hcounts hrisky =>
    have hrefused : refusal? c w.node =
        some (.forbiddenBySafeMode (w.node.warnings.text .rpc)) := by
      simp [refusal?_of_wallet hwallet, hcounts, hrisky, htext]
    refine ⟨.forbiddenBySafeMode (w.node.warnings.text .rpc), ?_, rfl, rfl, rfl⟩
    rw [Table.execute, h]
    dsimp only
    rw [hrefused]

/-- A handler that the table brings along is called with the parameters on the node as it is, and
what it gives and leaves is all that comes of it. -/
theorem run_custom (t : Table σ) (i : Nat) (params : List Json) (w : World σ) :
    t.run (.custom i) params w =
      ((t.custom i params false w.node w.store).1,
        ⟨(t.custom i params false w.node w.store).2.1, (t.custom i params false w.node w.store).2.2,
          w.calls ++ [⟨.custom i, params, false⟩]⟩) := rfl

/-! ## The flag for threads -/

/-- The table without the flags for threads. -/
def unthreaded (t : Table σ) : Table σ :=
  { t with commands := t.commands.map fun c => (c.1, c.2.unthreaded) }

theorem lookup?_unthreaded (t : Table σ) (name : String) :
    t.unthreaded.lookup? name = (t.lookup? name).map Command.unthreaded := by
  unfold lookup? unthreaded
  induction t.commands with
  | nil => rfl
  | cons m ms ih =>
    rw [List.map_cons, Members.get?, Members.get?, ih]
    split <;> rfl

/-- The commands of a listing are found by name, wallet and handler. -/
theorem firstOfHandler_unthreaded (seen : List HandlerId) (cs : List (String × Command)) :
    firstOfHandler seen (cs.map fun c => (c.1, c.2.unthreaded)) =
      (firstOfHandler seen cs).map fun c => (c.1, c.2.unthreaded) := by
  induction cs generalizing seen with
  | nil => rfl
  | cons c cs ih =>
    rw [List.map_cons, firstOfHandler, firstOfHandler, ih, ih]
    show (if c.2.handler ∈ seen then _ else _) = _
    split <;> rfl

theorem listed_unthreaded (t : Table σ) (filter : String) (hasWallet : Bool) :
    t.unthreaded.listed filter hasWallet =
      (t.listed filter hasWallet).map fun c => (c.1, c.2.unthreaded) := by
  rw [listed, listed, unthreaded, List.filter_map, firstOfHandler_unthreaded]
  rfl

/-- A description asks the handlers only. -/
theorem describeAll_unthreaded (t : Table σ) (wholeText : Bool) (cs : List (String × Command))
    (w : World σ) :
    t.unthreaded.describeAll wholeText (cs.map fun c => (c.1, c.2.unthreaded)) w =
      t.describeAll wholeText cs w := by
  induction cs generalizing w with
  | nil => rfl
  | cons c cs ih =>
    have hfirst : t.unthreaded.describe c.2.unthreaded.handler w = t.describe c.2.handler w := rfl
    rw [List.map_cons, describeAll, describeAll, hfirst]
    simp only [ih]

theorem run_unthreaded (t : Table σ) (h : HandlerId) (params : List Json) (w : World σ) :
    t.unthreaded.run h params w = t.run h params w := by
  have hhelp : ∀ (filter : String) (w : World σ), t.unthreaded.help filter w = t.help filter w := by
    intro filter w
    rw [help, help, listed_unthreaded, describeAll_unthreaded]
  cases h with
  | custom i => rfl
  | builtin b =>
    cases b with
    | help =>
      unfold run runHelp
      simp only [hhelp]
    | _ => rfl

/-- **The flag for threads never changes what a call comes to.** -/
theorem execute_unthreaded (t : Table σ) (method : String) (params : List Json) (w : World σ) :
    t.unthreaded.execute method params w = t.execute method params w := by
  rw [execute, execute, lookup?_unthreaded]
  cases t.lookup? method with
  | none => rfl
  | some c =>
    have hrefusal : refusal? c.unthreaded w.node = refusal? c w.node := rfl
    rw [Option.map_some]
    dsimp only
    rw [hrefusal]
    simp only [run_unthreaded]
    rfl

/-! ## The scope of the locks -/

/-- **A call under locks comes to what it comes to without**, and leaves the locks as they were; if
the locks are not free it may wait for them instead. -/
theorem executeLocked_cases (t : Table σ) (method : String) (params : List Json) (w : World σ)
    (l : Locks) :
    t.executeLocked method params w l = some (t.execute method params w, l) ∨
      (t.executeLocked method params w l = none ∧ ¬ l.Free w.node.wallet.isSome) := by
  rw [executeLocked, execute]
  cases t.lookup? method with
  | none => exact Or.inl rfl
  | some c =>
    dsimp only
    cases refusal? c w.node with
    | some e => exact Or.inl rfl
    | none =>
      dsimp only
      split
      · exact Or.inl rfl
      · rcases l.take?_cases w.node.wallet.isSome with ⟨taken, htaken, hback⟩ | ⟨hnone, hheld⟩
        · rw [htaken, Option.map_some, hback]
          exact Or.inl rfl
        · rw [hnone]
          exact Or.inr ⟨rfl, hheld⟩

/-- A call waits for no lock that is free. -/
theorem executeLocked_of_free (t : Table σ) (method : String) (params : List Json) (w : World σ)
    {l : Locks} (h : l.Free w.node.wallet.isSome) :
    t.executeLocked method params w l = some (t.execute method params w, l) :=
  (t.executeLocked_cases method params w l).resolve_right fun hwaits => hwaits.2 h

/-! ## The policy of calls -/

/-- **The policy of calls.** A handler is run exactly if the method is permitted: the table has it,
the wallet that it may need is loaded, and there is no warning for commands, or none that counts for
this one. Then the handler of the command is run once with the parameters, and a handler that the
table brings along sees the node as it is; what it gives and leaves is all that comes of the call.
Every other method is forbidden: nothing is run, nothing changes, and the first reason is the error.
The warning for the status does not matter to that, the flag for threads does not matter to anything,
and neither do the locks, which a call leaves as they were. -/
theorem dispatch_policy (t : Table σ) (method : String) (params : List Json) (w : World σ) :
    let res := (t.execute method params w).1
    let after := (t.execute method params w).2
    (after.calls ≠ w.calls ↔ ∃ c, t.Permits method w.node c) ∧
      (∀ c, t.Permits method w.node c →
        (∀ c', t.Permits method w.node c' → c' = c) ∧
          res = result (t.run c.handler params w).1 ∧ after = (t.run c.handler params w).2 ∧
          (∃ ds, Descriptions ds ∧ (c.handler ≠ .builtin .help → ds = []) ∧
            after.calls = w.calls ++ ⟨c.handler, params, false⟩ :: ds) ∧
          ∀ i, c.handler = .custom i →
            let given := t.custom i params false w.node w.store
            res = result given.1 ∧
              after = ⟨given.2.1, given.2.2, w.calls ++ [⟨.custom i, params, false⟩]⟩) ∧
      ((∃ c, t.Permits method w.node c) ∨ ∃ code message, t.Forbids method w.node code message) ∧
      (∀ code message, t.Forbids method w.node code message →
        (∀ c, ¬ t.Permits method w.node c) ∧ after = w ∧
          ∃ e, res = .error e ∧ e.code.number = code ∧ e.message = message ∧ e.data = none) ∧
      (∀ n', SamePolicy w.node n' →
        (∀ c, t.Permits method n' c ↔ t.Permits method w.node c) ∧
          ∀ code message, t.Forbids method n' code message ↔
            t.Forbids method w.node code message) ∧
      (∀ t' : Table σ, t'.unthreaded = t.unthreaded →
        t'.execute method params w = t.execute method params w) ∧
      ∀ l : Locks, l.Free w.node.wallet.isSome →
        t.executeLocked method params w l = some (t.execute method params w, l) := by
  intro res after
  have hpermitted : ∀ {c}, t.Permits method w.node c →
      t.execute method params w =
        (result (t.run c.handler params w).1, (t.run c.handler params w).2) :=
    fun hc => execute_of_admits t hc.admits params
  refine ⟨⟨?_, ?_⟩, ?_, t.permits_or_forbids method w.node, ?_, ?_, ?_, ?_⟩
  · intro hcalls
    rcases t.permits_or_forbids method w.node with hc | ⟨code, message, hf⟩
    · exact hc
    · obtain ⟨e, he, -⟩ := hf.execute params
      exact absurd (congrArg (fun p => p.2.calls) he) hcalls
  · rintro ⟨c, hc⟩ hsame
    obtain ⟨ds, -, -, hcalls⟩ := t.calls_run c.handler params w
    have hafter : after = (t.run c.handler params w).2 := congrArg Prod.snd (hpermitted hc)
    rw [hafter, hcalls] at hsame
    simp at hsame
  · intro c hc
    have hres : res = result (t.run c.handler params w).1 := congrArg Prod.fst (hpermitted hc)
    have hafter : after = (t.run c.handler params w).2 := congrArg Prod.snd (hpermitted hc)
    refine ⟨fun c' => hc.unique, hres, hafter, hafter ▸ t.calls_run c.handler params w, ?_⟩
    intro i hi
    rw [hi, run_custom] at hres hafter
    exact ⟨hres, hafter⟩
  · intro code message hf
    obtain ⟨e, he, hcode, hmessage, hdata⟩ := hf.execute params
    exact ⟨hf.not_permits, congrArg Prod.snd he, e, congrArg Prod.fst he, hcode, hmessage, hdata⟩
  · intro n' hn
    exact ⟨fun c => ⟨fun h => h.congr hn.symm, fun h => h.congr hn⟩,
      fun code message => ⟨fun h => h.congr hn.symm, fun h => h.congr hn⟩⟩
  · intro t' ht
    rw [← t'.execute_unthreaded, ht, t.execute_unthreaded]
  · intro l hl
    exact t.executeLocked_of_free method params w hl

end Table

end RpcDaemon
