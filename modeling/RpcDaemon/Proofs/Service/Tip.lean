import RpcDaemon.Proofs.Service.Session

/-!
# The tip of a new chain

A node that is built holds the first block of the network that is active then. The network may be
chosen anew afterwards, until that is closed: the state that is reported follows the choice, but the
chain does not. Main statement: `tip_of_network_at_building`.
-/

namespace RpcDaemon

variable {σ : Type}

/-! ## The first blocks of the networks -/

/-- The networks have first blocks with hashes of their own. -/
theorem Chain.genesisHashText_injective {m n : Chain.Network}
    (h : (Chain.Profile.of m).genesis.hashText = (Chain.Profile.of n).genesis.hashText) :
    m = n := by
  have hmt : (Chain.Profile.of .main).genesis.hashText ≠
      (Chain.Profile.of .test).genesis.hashText := by decide +kernel
  have hmr : (Chain.Profile.of .main).genesis.hashText ≠
      (Chain.Profile.of .regtest).genesis.hashText := by decide +kernel
  have htr : (Chain.Profile.of .test).genesis.hashText ≠
      (Chain.Profile.of .regtest).genesis.hashText := by decide +kernel
  cases m with
  | main => cases n with
    | main => rfl
    | test => exact absurd h hmt
    | regtest => exact absurd h hmr
  | test => cases n with
    | main => exact absurd h.symm hmt
    | test => rfl
    | regtest => exact absurd h htr
  | regtest => cases n with
    | main => exact absurd h.symm hmr
    | test => exact absurd h.symm htr
    | regtest => rfl

/-- Nothing that is done to a sealed registry changes it. -/
theorem Chain.Step.run_of_sealed {r : Chain.Registry} (h : r.isSealed = true) (a : Chain.Step) :
    (a.run r).2 = r := by
  rcases a.run_cases r with ⟨-, hr⟩ | ⟨n, -, hopen, -⟩ | ⟨-, -, e, hr⟩
  · rw [hr, Chain.Registry.close, ← h]
  · cases hopen.symm.trans h
  · rw [hr]

/-! ## What a session does to the chain and to the choice of the network -/

/-- How a node may change: its chain stays, and so does the choice of the network once it is closed.
-/
structure Node.Evolves (n n' : Node) : Prop where
  /-- The chain is the same. -/
  chain_eq : n'.chain = n.chain
  /-- A choice that was closed is the same. -/
  registry_eq : n.registry.isSealed = true → n'.registry = n.registry

theorem Node.Evolves.refl (n : Node) : n.Evolves n :=
  ⟨rfl, fun _ => rfl⟩

theorem Node.Evolves.trans {a b c : Node} (hab : a.Evolves b) (hbc : b.Evolves c) :
    a.Evolves c := by
  refine ⟨hbc.chain_eq.trans hab.chain_eq, fun h => ?_⟩
  have heq := hab.registry_eq h
  rw [hbc.registry_eq (heq ▸ h), heq]

namespace Table

/-- The handlers let a node change only as it may. -/
def LetsEvolve (custom : Nat → Handler σ) : Prop :=
  ∀ i params describe (n : Node) store, n.Evolves (custom i params describe n store).2.1

variable {t : Table σ} {custom : Nat → Handler σ} {allowed : HandlerId → Prop}

theorem Extends.respects_evolves (ht : t.Extends allowed custom) (hcustom : LetsEvolve custom) :
    t.Respects Node.Evolves where
  refl := Node.Evolves.refl
  trans := Node.Evolves.trans
  custom := by
    rw [ht.custom_eq]
    exact hcustom

end Table

namespace Session

variable {t : Table σ} {custom : Nat → Handler σ} {allowed : HandlerId → Prop}

/-- **A step** lets the node change only as it may. -/
theorem Step.evolves (hR : t.Respects Node.Evolves) (a : Step) (w : World σ) :
    w.node.Evolves (a.run t w).node := by
  cases a with
  | calls e => exact (e.performs t w).respects hR fun _ => ⟨rfl, fun _ => rfl⟩
  | help filter => exact hR.help filter w
  | warn text => exact ⟨rfl, fun _ => rfl⟩
  | network a => exact ⟨rfl, fun hsealed => a.run_of_sealed hsealed⟩
  | requestShutdown => exact ⟨rfl, fun _ => rfl⟩

/-- **A session** lets the node change only as it may, between any two of its moments. -/
theorem evolves_after (hR : t.Respects Node.Evolves) (steps : List Step) (w : World σ) {j k : Nat}
    (hjk : j ≤ k) : (after t steps w j).node.Evolves (after t steps w k).node := by
  induction k, hjk using Nat.le_induction with
  | base => exact .refl _
  | succ k hjk ih =>
    cases ha : steps[k]? with
    | none => rwa [after_succ_of_none ha]
    | some a =>
      rw [after_succ ha]
      exact ih.trans (a.evolves hR _)

/-! ## Reports -/

/-- Whether the state that a node reports is that of a test network is told by its choice of the
network. -/
theorem get?_info_testnet (n : Node) :
    (Builtin.info n).get? "testnet" = some (.bool (n.registry.active != .main)) := by
  refine Members.get?_ofList_of_mem ?_ (List.mem_append_left _ (by simp))
  cases n.wallet with
  | none => simp
  | some wallet => cases h : wallet.unlockedUntil <;> simp [Builtin.walletMembers, h]

/-- The hash that is reported is that of the last block of the chain. -/
theorem execute_getbestblockhash (ht : t.Extends allowed custom) (w : World σ) :
    (t.execute "getbestblockhash" [] w).1 = .ok (.string w.node.chain.bestHash) :=
  ht.execute_builtin (b := .getbestblockhash) (by decide) (Nat.zero_le _) w

/-- The state is reported with the network that is active. -/
theorem execute_getinfo (ht : t.Extends allowed custom) (w : World σ) :
    ∃ info, (t.execute "getinfo" [] w).1 = .ok info ∧
      info.get? "testnet" = some (.bool (w.node.registry.active != .main)) :=
  ⟨_, ht.execute_builtin (b := .getinfo) (by decide) (Nat.zero_le _) w, get?_info_testnet w.node⟩

/-- **The hash that a new chain reports is that of the network that was active when it was built.**
The node is built from the registry as it stands, with any wallet and warnings; then anything may
happen. At every moment the hash of the last block is that of the first block of the network that
was active at building, while the state is reported with the network that is active now. So the hash
is that of the network that is active exactly if that is the one from the building. Once the choice
of the network is closed neither of the reports changes any more; if it was closed before the
building, they are of one network for good. -/
theorem tip_of_network_at_building (ht : t.Extends allowed custom)
    (hcustom : Table.LetsEvolve custom) (r : Chain.Registry) (wallet : Option Wallet)
    (warnings : Warnings) (safeModeDisabled : Bool) (store : σ) (calls : List Invocation)
    (steps : List Step) :
    let built : World σ :=
      ⟨{ Node.fresh r with wallet, warnings, safeModeDisabled }, store, calls⟩
    (∀ k, let now := after t steps built k
      (t.execute "getbestblockhash" [] now).1 =
          .ok (.string (Chain.Profile.of r.active).genesis.hashText) ∧
        (∃ info, (t.execute "getinfo" [] now).1 = .ok info ∧
          info.get? "testnet" = some (.bool (now.node.registry.active != .main))) ∧
        ((t.execute "getbestblockhash" [] now).1 =
            .ok (.string now.node.registry.profile.genesis.hashText) ↔
          now.node.registry.active = r.active) ∧
        (r.isSealed = true → now.node.registry = r)) ∧
    ∀ j k, j ≤ k → (after t steps built j).node.registry.isSealed = true →
      (after t steps built k).node.registry = (after t steps built j).node.registry := by
  intro built
  have hR := ht.respects_evolves hcustom
  refine ⟨?_, ?_⟩
  · intro k now
    have hevolves : built.node.Evolves now.node := evolves_after hR steps built (Nat.zero_le k)
    have hhash : (t.execute "getbestblockhash" [] now).1 =
        .ok (.string (Chain.Profile.of r.active).genesis.hashText) := by
      rw [execute_getbestblockhash ht, hevolves.chain_eq]
      rfl
    refine ⟨hhash, execute_getinfo ht now, ?_, hevolves.registry_eq⟩
    rw [hhash]
    -- The chain is that of the building, so the hashes agree only if the networks do.
    constructor
    · intro heq
      exact (Chain.genesisHashText_injective (Json.string.inj (Except.ok.inj heq))).symm
    · intro hactive
      rw [Chain.Registry.profile, hactive]
  · intro j k hjk
    exact (evolves_after hR steps built hjk).registry_eq

/-- A choice between two calls, on a node with the built-in commands. -/
theorem tip_of_network_at_building_of_select :
    let t : Table Unit := .builtins fun _ _ _ node u => (.usage "", node, u)
    let steps : List Step :=
      [.calls (.execute "getinfo" []), .network (.flags false true), .network .close,
        .network (.select .regtest)]
    let now := after t steps ⟨.fresh .initial, (), []⟩ 4
    (t.execute "getbestblockhash" [] now).1 =
        .ok (.string (Chain.Profile.of .main).genesis.hashText) ∧
      ∃ info, (t.execute "getinfo" [] now).1 = .ok info ∧
        info.get? "testnet" = some (.bool true) := by
  intro t steps now
  obtain ⟨hk, hsealed⟩ := tip_of_network_at_building (.builtins : t.Extends (fun _ => True) _)
    (fun _ _ _ n _ => .refl n) .initial none (.board "") false () [] steps
  obtain ⟨hhash, ⟨info, hinfo, htestnet⟩, -, -⟩ := hk 4
  have hclosed := hsealed 3 4 (by decide) rfl
  refine ⟨hhash, info, hinfo, htestnet.trans ?_⟩
  rw [hclosed]
  rfl

/-- **The reports can be of two networks**: after another network is chosen, the hash is not that of
the network that is active. -/
theorem hash_of_inactive_network :
    let t : Table Unit := .builtins fun _ _ _ node u => (.usage "", node, u)
    let now := after t [.network (.select .test)] ⟨.fresh .initial, (), []⟩ 1
    ¬ (t.execute "getbestblockhash" [] now).1 =
      .ok (.string now.node.registry.profile.genesis.hashText) := by
  intro t now heq
  have ht : t.Extends (fun _ => True) _ := .builtins
  rw [execute_getbestblockhash ht] at heq
  have hnetworks : Chain.Network.main = .test :=
    Chain.genesisHashText_injective (Json.string.inj (Except.ok.inj heq))
  cases hnetworks

end Session

end RpcDaemon
