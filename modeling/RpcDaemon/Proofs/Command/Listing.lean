import RpcDaemon.Proofs.Command.Invocation
import RpcDaemon.Proofs.Json.Members
import RpcDaemon.Proofs.Text.Blank
import RpcDaemon.Proofs.Text.Utf8

/-!
# What a listing describes

A listing goes through the names in order, leaves out those that may not be shown, and asks a
handler for its description at the first name that is left of it. Main statements:
`Registered.mem_listed_iff` and `help_describes_each_handler_once`.
-/

namespace RpcDaemon

namespace Table

variable {σ : Type} {t : Table σ} {custom : Nat → Handler σ} {name filter : String} {c : Command}
  {hasWallet : Bool} {seen : List HandlerId} {cs : List (String × Command)} {w : World σ}

/-! ## Tables that are registered -/

/-- **A table whose commands were registered**, one after the other. -/
inductive Registered (custom : Nat → Handler σ) : Table σ → Prop
  /-- There are none yet. -/
  | empty : Registered custom (.empty custom)
  /-- One more is registered. -/
  | register {t t' : Table σ} {name : String} {flags : Flags} {h : HandlerId}
      (ht : Registered custom t) (hr : t.register name flags h = .ok t') : Registered custom t'

/-- The commands of a registered table stand in the order of their names. -/
theorem Registered.sorted (ht : Registered custom t) : Members.Sorted t.commands := by
  induction ht with
  | empty => exact List.Pairwise.nil
  | @register t t' name flags h ht hr ih =>
    unfold Table.register at hr
    split at hr
    · cases hr
    · cases hr
      exact Members.sorted_insert name _ ih

/-- A command of a registered table is found under its name. -/
theorem Registered.mem_commands_iff (ht : Registered custom t) :
    (name, c) ∈ t.commands ↔ t.lookup? name = some c :=
  (Members.get?_eq_some_iff_mem ht.sorted).symm

/-- A table of commands with names of their own is registered. -/
theorem registered_ofList {cs : List (String × Command)} (h : (cs.map Prod.fst).Nodup) :
    Registered custom ⟨Members.ofList cs, custom⟩ := by
  induction cs using List.reverseRecOn with
  | nil => exact .empty
  | append_singleton cs c ih =>
    rw [List.map_append, List.map_singleton, List.nodup_append] at h
    obtain ⟨hfirst, -, hne⟩ := h
    have hr : Table.register ⟨Members.ofList cs, custom⟩ c.1 c.2.flags c.2.handler =
        .ok ⟨Members.ofList (cs ++ [c]), custom⟩ := by
      rw [Table.register]
      split
      · rename_i c' hc'
        have hc : (c.1, c') ∈ cs := Members.mem_of_get?_ofList hc'
        exact absurd rfl (hne c.1 (List.mem_map.mpr ⟨_, hc, rfl⟩) c.1 List.mem_cons_self)
      · unfold Members.ofList
        rw [List.foldl_append]
        rfl
    exact (ih hfirst).register hr

/-! ## The names of a listing -/

/-- The command may be shown: it is registered, its name does not speak of labels, and it does not
lack a wallet. -/
def Shown (t : Table σ) (hasWallet : Bool) (name : String) (c : Command) : Prop :=
  t.lookup? name = some c ∧ ¬ "label".toList <:+: name.toList ∧
    (c.flags.wallet = true → hasWallet = true)

/-- The command is the first of those with its handler that may be shown, in the order of the bytes
of their names. -/
def Leads (t : Table σ) (hasWallet : Bool) (name : String) (c : Command) : Prop :=
  t.Shown hasWallet name c ∧ ∀ name' c', t.Shown hasWallet name' c' →
    Utf8.ofString name' < Utf8.ofString name → c'.handler ≠ c.handler

/-- The filter leaves the commands that may be shown, if they have the name asked for. -/
theorem Registered.mem_filter_isListed_iff (ht : Registered custom t) :
    (name, c) ∈ t.commands.filter (isListed filter hasWallet) ↔
      t.Shown hasWallet name c ∧ (filter = "" ∨ name = filter) := by
  have hlabel : occursIn "label".toList name.toList = true ↔ "label".toList <:+: name.toList :=
    Chars.isSome_after?_iff
  rw [List.mem_filter, ht.mem_commands_iff, Shown, ← hlabel]
  simp only [isListed, Bool.and_eq_true, Bool.or_eq_true, Bool.not_eq_true', Bool.not_eq_true,
    String.isEmpty_iff, beq_iff_eq]
  cases c.flags.wallet <;> simp [and_comm, and_left_comm]

/-- **The first commands of their handlers**, where names stand in order: no command of an earlier
name has the handler, and it is not among those seen before. -/
theorem mem_firstOfHandler_iff (hcs : Members.Sorted cs) {d : String × Command} :
    d ∈ firstOfHandler seen cs ↔
      d ∈ cs ∧ d.2.handler ∉ seen ∧ ∀ e ∈ cs, e.1 < d.1 → e.2.handler ≠ d.2.handler := by
  induction cs generalizing seen with
  | nil => exact iff_of_false List.not_mem_nil fun h => List.not_mem_nil h.1
  | cons first cs ih =>
    obtain ⟨hfirst, hrest⟩ := List.pairwise_cons.mp hcs
    -- Nothing stands before the first command, and it stands before all others.
    have hlast : ∀ e ∈ first :: cs, ¬ e.1 < first.1 := by
      intro e he
      rcases List.mem_cons.mp he with rfl | he
      · exact String.lt_irrefl e.1
      · exact String.lt_asymm (hfirst e he)
    rw [firstOfHandler]
    split
    · rename_i hseen
      rw [ih hrest, List.mem_cons, List.forall_mem_cons]
      constructor
      · rintro ⟨hd, hnew, hothers⟩
        exact ⟨Or.inr hd, hnew, fun _ heq => hnew (heq ▸ hseen), hothers⟩
      · rintro ⟨rfl | hd, hnew, -, hothers⟩
        · exact absurd hseen hnew
        · exact ⟨hd, hnew, hothers⟩
    · rename_i hunseen
      rw [List.mem_cons, ih hrest, List.mem_cons, List.mem_cons, not_or]
      constructor
      · rintro (rfl | ⟨hd, ⟨hne, hnew⟩, hothers⟩)
        · exact ⟨Or.inl rfl, hunseen, fun e he hlt => absurd hlt (hlast e he)⟩
        · refine ⟨Or.inr hd, hnew, List.forall_mem_cons.mpr ⟨fun _ heq => hne heq.symm, hothers⟩⟩
      · rintro ⟨rfl | hd, hnew, hothers⟩
        · exact Or.inl rfl
        · obtain ⟨hne, hothers⟩ := List.forall_mem_cons.mp hothers
          exact Or.inr ⟨hd, ⟨fun heq => hne (hfirst d hd) heq.symm, hnew⟩, hothers⟩

/-- Leaving out commands does not change the order of the others. -/
theorem firstOfHandler_sublist (seen : List HandlerId) (cs : List (String × Command)) :
    (firstOfHandler seen cs).Sublist cs := by
  induction cs generalizing seen with
  | nil => exact List.Sublist.slnil
  | cons c cs ih =>
    rw [firstOfHandler]
    split
    · exact (ih seen).cons c
    · exact (ih (c.2.handler :: seen)).cons_cons c

/-- No handler comes twice. -/
theorem nodup_firstOfHandler (seen : List HandlerId) (cs : List (String × Command)) :
    (∀ c ∈ firstOfHandler seen cs, c.2.handler ∉ seen) ∧
      ((firstOfHandler seen cs).map fun c => c.2.handler).Nodup := by
  induction cs generalizing seen with
  | nil => exact ⟨List.forall_mem_nil _, List.nodup_nil⟩
  | cons c cs ih =>
    rw [firstOfHandler]
    split
    · exact ih seen
    · rename_i hunseen
      obtain ⟨hnew, hnodup⟩ := ih (c.2.handler :: seen)
      constructor
      · refine List.forall_mem_cons.mpr ⟨hunseen, fun d hd hseen => ?_⟩
        exact hnew d hd (List.mem_cons_of_mem _ hseen)
      · rw [List.map_cons, List.nodup_cons]
        refine ⟨fun hm => ?_, hnodup⟩
        obtain ⟨d, hd, heq⟩ := List.mem_map.mp hm
        exact hnew d hd (heq ▸ List.mem_cons_self)

/-- The names of a listing stand in order. -/
theorem Registered.sorted_listed (ht : Registered custom t) (filter : String) (hasWallet : Bool) :
    Members.Sorted (t.listed filter hasWallet) :=
  ht.sorted.sublist ((firstOfHandler_sublist _ _).trans List.filter_sublist)

/-- **The commands of the whole listing** are those that lead. -/
theorem Registered.mem_listed_iff (ht : Registered custom t) :
    (name, c) ∈ t.listed "" hasWallet ↔ t.Leads hasWallet name c := by
  rw [listed, mem_firstOfHandler_iff (ht.sorted.sublist List.filter_sublist),
    ht.mem_filter_isListed_iff, Leads]
  constructor
  · rintro ⟨⟨hshown, -⟩, -, hothers⟩
    refine ⟨hshown, fun name' c' hshown' hlt => ?_⟩
    exact hothers (name', c') (ht.mem_filter_isListed_iff.mpr ⟨hshown', Or.inl rfl⟩)
      (Utf8.ofString_lt_iff.mp hlt)
  · rintro ⟨hshown, hothers⟩
    refine ⟨⟨hshown, Or.inl rfl⟩, List.not_mem_nil, fun d hd hlt => ?_⟩
    obtain ⟨hshown', -⟩ := ht.mem_filter_isListed_iff.mp hd
    exact hothers d.1 d.2 hshown' (Utf8.ofString_lt_iff.mpr hlt)

/-- With a filter the command of that name is listed, if it may be shown. -/
theorem Registered.listed_of_shown (ht : Registered custom t) (hfilter : filter ≠ "")
    (h : t.Shown hasWallet filter c) : t.listed filter hasWallet = [(filter, c)] := by
  have honly : ∀ d ∈ t.commands.filter (isListed filter hasWallet), d = (filter, c) := by
    rintro ⟨name', c'⟩ hd
    obtain ⟨hshown, hname⟩ := ht.mem_filter_isListed_iff.mp hd
    obtain rfl := hname.resolve_left hfilter
    rw [Option.some.inj (hshown.1.symm.trans h.1)]
  have hsorted := ht.sorted.sublist
    (List.filter_sublist (l := t.commands) (p := isListed filter hasWallet))
  have hmem := ht.mem_filter_isListed_iff.mpr ⟨h, Or.inr rfl⟩
  rw [listed]
  generalize t.commands.filter (isListed filter hasWallet) = ds at honly hsorted hmem
  cases ds with
  | nil => exact absurd hmem List.not_mem_nil
  | cons d ds =>
    obtain ⟨hd, hds⟩ := List.forall_mem_cons.mp honly
    cases ds with
    | nil => rw [hd]; rfl
    | cons e ds =>
      -- A second command would have the name of the first one.
      have hlt := (List.pairwise_cons.mp hsorted).1 e List.mem_cons_self
      rw [hd, hds e List.mem_cons_self] at hlt
      exact absurd hlt (String.lt_irrefl filter)

/-- With a filter nothing is listed if the command of that name may not be shown. -/
theorem Registered.listed_of_forall_not_shown (ht : Registered custom t) (hfilter : filter ≠ "")
    (h : ∀ c, ¬ t.Shown hasWallet filter c) : t.listed filter hasWallet = [] := by
  have hnone : t.commands.filter (isListed filter hasWallet) = [] := by
    rw [List.eq_nil_iff_forall_not_mem]
    rintro ⟨name, c⟩ hd
    obtain ⟨hshown, hname⟩ := ht.mem_filter_isListed_iff.mp hd
    exact h c (hname.resolve_left hfilter ▸ hshown)
  rw [listed, hnone]
  rfl

/-! ## Descriptions in turn -/

/-- What a handler says when it is asked to describe itself, without parameters, and what it leaves
of the node and of the handlers' own state. -/
def ask (t : Table σ) : HandlerId → Node → σ → Outcome × Node × σ
  | .builtin b, node, store => (.usage b.usage, node, store)
  | .custom n, node, store => t.custom n [] true node store

/-- What handlers say when they are asked one after the other. -/
def askAll (t : Table σ) : List HandlerId → Node → σ → List Outcome × Node × σ
  | [], node, store => ([], node, store)
  | h :: rest, node, store =>
      let (o, node, store) := t.ask h node store
      let (os, node, store) := t.askAll rest node store
      (o :: os, node, store)

theorem askAll_cons (t : Table σ) (h : HandlerId) (hs : List HandlerId) (node : Node) (store : σ) :
    t.askAll (h :: hs) node store =
      let said := t.ask h node store
      let later := t.askAll hs said.2.1 said.2.2
      (said.1 :: later.1, later.2) :=
  rfl

/-- No handler of a command breaks down when it is asked to describe itself. -/
def Calm (t : Table σ) : Prop :=
  ∀ name c n, t.lookup? name = some c → c.handler = .custom n →
    ∀ node store m, (t.custom n [] true node store).1 ≠ .panic m

/-- Describing a command asks its handler and adds it to the log. -/
theorem describe_eq_ask (t : Table σ) (h : HandlerId) (w : World σ) :
    t.describe h w =
      let said := t.ask h w.node w.store
      (said.1, ⟨said.2.1, said.2.2, w.calls ++ [⟨h, [], true⟩]⟩) := by
  cases h <;> rfl

/-- A calm table's handlers give a description or a value. -/
theorem Calm.ask_ne_panic (ht : t.Calm) (hc : t.lookup? name = some c) (node : Node) (store : σ)
    (m : Option String) : (t.ask c.handler node store).1 ≠ .panic m := by
  cases hh : c.handler with
  | builtin b => exact fun h => by cases h
  | custom n => exact ht name c n hc hh node store m

/-- **Descriptions are taken in turn**, as long as no handler breaks down. -/
theorem describeAll_eq_askAll {wholeText : Bool}
    (hcs : ∀ c ∈ cs, ∀ node store m, (t.ask c.2.handler node store).1 ≠ .panic m) (w : World σ) :
    t.describeAll wholeText cs w =
      let said := t.askAll (cs.map fun c => c.2.handler) w.node w.store
      (.ok (said.1.filterMap (contribution wholeText)),
        ⟨said.2.1, said.2.2, w.calls ++ cs.map fun c => ⟨c.2.handler, [], true⟩⟩) := by
  induction cs generalizing w with
  | nil =>
    show (_, w) = (_, (⟨w.node, w.store, w.calls ++ []⟩ : World σ))
    rw [List.append_nil]
    rfl
  | cons c cs ih =>
    obtain ⟨hc, hrest⟩ := List.forall_mem_cons.mp hcs
    rw [describeAll, describe_eq_ask]
    split
    · rename_i m w' hd
      exact absurd (congrArg Prod.fst hd) (hc w.node w.store m)
    · rename_i o w' _ hd
      obtain ⟨rfl, rfl⟩ := Prod.mk.inj hd
      rw [ih hrest, List.map_cons, List.map_cons, askAll_cons]
      dsimp only
      rw [List.append_assoc, List.filterMap_cons]
      cases contribution wholeText (t.ask c.2.handler w.node w.store).1 <;> rfl

/-! ## Lines -/

/-- The text of an outcome: an explanation of use or the message of an error. -/
def text? : Outcome → Option String
  | .usage text => some text
  | .error e => some e.message
  | _ => none

/-- A contribution is the text of the outcome or its first line. -/
theorem contribution_eq (wholeText : Bool) (o : Outcome) :
    contribution wholeText o = (text? o).map fun s => if wholeText then s else firstLine s := by
  cases o <;> rfl

/-- The line is the first one of the text: it ends with the text or before a line feed. -/
def IsFirstLineOf (line text : String) : Prop :=
  '\n' ∉ line.toList ∧ (line = text ∨ ∃ rest, text.toList = line.toList ++ '\n' :: rest)

/-- The first line of a text is one. -/
theorem isFirstLineOf_firstLine (s : String) : IsFirstLineOf (firstLine s) s := by
  have hparts := List.takeWhile_append_dropWhile (p := fun c => c != '\n') (l := s.toList)
  rw [IsFirstLineOf, firstLine, String.toList_ofList]
  constructor
  · intro h
    exact absurd (List.all_eq_true.mp List.all_takeWhile _ h) (by decide)
  · cases hrest : s.toList.dropWhile (fun c => c != '\n') with
    | nil =>
      rw [hrest, List.append_nil] at hparts
      rw [hparts, String.ofList_toList]
      exact Or.inl rfl
    | cons c rest =>
      have hc : c = '\n' := by
        have hhead := List.head_dropWhile_not (fun c => c != '\n') (l := s.toList) (by simp [hrest])
        simpa [hrest] using hhead
      rw [hrest, hc] at hparts
      exact Or.inr ⟨rest, hparts.symm⟩

/-- The first lines of several texts. -/
theorem forall₂_isFirstLineOf (texts : List String) :
    List.Forall₂ IsFirstLineOf (texts.map firstLine) texts := by
  induction texts with
  | nil => exact List.Forall₂.nil
  | cons text texts ih => exact List.Forall₂.cons (isFirstLineOf_firstLine text) ih

/-- Lines that are joined fall apart again. -/
theorem splitOn_intercalate_firstLine {texts : List String} (h : texts ≠ []) :
    ("\n".intercalate (texts.map firstLine)).toList.splitOn '\n' =
      (texts.map firstLine).map String.toList := by
  rw [String.toList_intercalate]
  refine List.splitOn_intercalate '\n' ?_ (by simpa using h)
  intro line hline
  obtain ⟨text, htext, rfl⟩ := List.mem_map.mp hline
  obtain ⟨s, -, rfl⟩ := List.mem_map.mp htext
  exact (isFirstLineOf_firstLine s).1

/-! ## The listing -/

/-- Commands that are listed do not break down. -/
theorem Registered.listed_calm (ht : Registered custom t) (hcalm : t.Calm) :
    ∀ c ∈ t.listed filter hasWallet, ∀ node store m,
      (t.ask c.2.handler node store).1 ≠ .panic m := by
  rintro ⟨name, c⟩ hc node store m
  have hm := (firstOfHandler_sublist _ _).subset hc
  obtain ⟨⟨hlookup, -⟩, -⟩ := ht.mem_filter_isListed_iff.mp hm
  exact hcalm.ask_ne_panic hlookup node store m

/-- Without a filter the first lines of all texts are listed. -/
theorem Registered.help_of_empty (ht : Registered custom t) (hcalm : t.Calm) (w : World σ) :
    let commands := t.listed "" w.node.wallet.isSome
    let said := t.askAll (commands.map fun c => c.2.handler) w.node w.store
    t.help "" w = (.ok (listing "" ((said.1.filterMap text?).map firstLine)),
      ⟨said.2.1, said.2.2, w.calls ++ commands.map fun c => ⟨c.2.handler, [], true⟩⟩) := by
  intro commands said
  have hlines : contribution false = fun o => (text? o).map firstLine :=
    funext fun o => contribution_eq false o
  rw [List.map_filterMap, ← hlines, help, describeAll_eq_askAll (ht.listed_calm hcalm)]
  rfl

/-- With a filter the command of that name gives its whole text. -/
theorem Registered.help_of_shown (ht : Registered custom t) (hcalm : t.Calm) (hfilter : filter ≠ "")
    (h : t.Shown w.node.wallet.isSome filter c) :
    t.help filter w =
      let said := t.ask c.handler w.node w.store
      (.ok ((text? said.1).getD ("help: unknown command: " ++ filter)),
        ⟨said.2.1, said.2.2, w.calls ++ [⟨c.handler, [], true⟩]⟩) := by
  have hwhole : (!filter.isEmpty) = true := by simpa using hfilter
  have htext : contribution true (t.ask c.handler w.node w.store).1 =
      text? (t.ask c.handler w.node w.store).1 := by
    rw [contribution_eq]
    cases text? (t.ask c.handler w.node w.store).1 <;> rfl
  have hcalm' : ∀ d ∈ [(filter, c)], ∀ node store m,
      (t.ask d.2.handler node store).1 ≠ .panic m :=
    List.forall_mem_singleton.mpr (hcalm.ask_ne_panic h.1)
  rw [help, ht.listed_of_shown hfilter h, hwhole, describeAll_eq_askAll hcalm']
  rw [List.map_singleton, List.map_singleton, askAll_cons]
  dsimp only
  rw [List.filterMap_cons, htext]
  cases text? (t.ask c.handler w.node w.store).1 <;> rfl

/-- With a filter nothing is asked if the command of that name may not be shown. -/
theorem Registered.help_of_forall_not_shown (ht : Registered custom t) (hfilter : filter ≠ "")
    (h : ∀ c, ¬ t.Shown w.node.wallet.isSome filter c) :
    t.help filter w = (.ok ("help: unknown command: " ++ filter), w) := by
  rw [help, ht.listed_of_forall_not_shown hfilter h]
  rfl

/-- **A listing describes each handler once.** Without a filter these are the handlers of the
commands that lead, in the order of the bytes of their names. Each is asked to describe itself, no
other one is run, and the listing has one line for each that gives a text, the first line of it.
With a filter the command of that name is asked, if it may be shown, and gives its whole text. Where
no text is given the listing says that the command is unknown. -/
theorem help_describes_each_handler_once (ht : Registered custom t) (hcalm : t.Calm) (w : World σ) :
    (∃ commands : List (String × Command),
      (commands.Pairwise fun a b => Utf8.ofString a.1 < Utf8.ofString b.1) ∧
      (∀ name c, (name, c) ∈ commands ↔ t.Leads w.node.wallet.isSome name c) ∧
      (commands.map fun c => c.2.handler).Nodup ∧
      let said := t.askAll (commands.map fun c => c.2.handler) w.node w.store
      (t.help "" w).2 = ⟨said.2.1, said.2.2,
        w.calls ++ commands.map fun c => ⟨c.2.handler, [], true⟩⟩ ∧
      ∃ lines, List.Forall₂ IsFirstLineOf lines (said.1.filterMap text?) ∧
        (lines = [] → (t.help "" w).1 = .ok "help: unknown command: ") ∧
        (lines ≠ [] → (t.help "" w).1 = .ok ("\n".intercalate lines) ∧
          ("\n".intercalate lines).toList.splitOn '\n' = lines.map String.toList)) ∧
    ∀ filter, filter ≠ "" →
      (∀ c, t.Shown w.node.wallet.isSome filter c →
        let said := t.ask c.handler w.node w.store
        (t.help filter w).2 = ⟨said.2.1, said.2.2, w.calls ++ [⟨c.handler, [], true⟩]⟩ ∧
        (∀ text, text? said.1 = some text → (t.help filter w).1 = .ok text) ∧
        (text? said.1 = none →
          (t.help filter w).1 = .ok ("help: unknown command: " ++ filter))) ∧
      ((∀ c, ¬ t.Shown w.node.wallet.isSome filter c) →
        t.help filter w = (.ok ("help: unknown command: " ++ filter), w)) := by
  constructor
  · refine ⟨t.listed "" w.node.wallet.isSome,
      (ht.sorted_listed "" _).imp Utf8.ofString_lt_iff.mpr, fun name c => ht.mem_listed_iff,
      (nodup_firstOfHandler _ _).2, ?_⟩
    intro said
    rw [ht.help_of_empty hcalm]
    refine ⟨rfl, _, forall₂_isFirstLineOf _, fun hnone => ?_, fun hsome => ⟨?_, ?_⟩⟩
    · rw [hnone]
      rfl
    · rw [listing, if_neg (by simpa using hsome)]
    · exact splitOn_intercalate_firstLine fun hnil => hsome (congrArg (List.map firstLine) hnil)
  · intro filter hfilter
    constructor
    · intro c hc said
      rw [ht.help_of_shown hcalm hfilter hc]
      refine ⟨rfl, fun text htext => ?_, fun hnone => ?_⟩
      · show Except.ok ((text? said.1).getD _) = _
        rw [htext]
        rfl
      · show Except.ok ((text? said.1).getD _) = _
        rw [hnone]
        rfl
    · intro hnone
      exact ht.help_of_forall_not_shown hfilter hnone

/-- A handler with several names, of which two may not be shown, and with a state that it changes
when it is asked. -/
theorem help_describes_each_handler_once_of_aliases :
    let plain : Flags := ⟨true, true, false⟩
    let counting : Nat → Handler Nat := fun _ _ _ node count =>
      (.usage (if count = 0 then "first\nmore" else "next"), node, count + 1)
    let t : Table Nat :=
      ⟨Members.ofList [("relabel", ⟨plain, .custom 0⟩), ("send", ⟨plain, .custom 0⟩),
        ("balance", ⟨⟨true, true, true⟩, .custom 0⟩), ("transfer", ⟨plain, .custom 0⟩),
        ("wait", ⟨plain, .custom 1⟩)], counting⟩
    let w : World Nat := ⟨.fresh .initial, 0, []⟩
    Registered counting t ∧ t.Calm ∧
    (∃ commands : List (String × Command),
      (∀ name c, (name, c) ∈ commands ↔ t.Leads false name c) ∧
      (t.help "" w).2.calls = commands.map fun c => ⟨c.2.handler, [], true⟩) ∧
    (t.help "" w).1 = .ok "first\nnext" ∧
    (t.help "transfer" w).1 = .ok "first\nmore" ∧
    t.help "relabel" w = (.ok "help: unknown command: relabel", w) := by
  intro plain counting t w
  have ht : Registered counting t := registered_ofList (by decide)
  have hcalm : t.Calm := fun name c n hc hn node store m h => by cases h
  obtain ⟨⟨commands, -, hleads, -, hworld, -⟩, hfiltered⟩ :=
    help_describes_each_handler_once ht hcalm w
  refine ⟨ht, hcalm, ⟨commands, hleads, congrArg World.calls hworld⟩, by decide +kernel, ?_, ?_⟩
  · exact ((hfiltered "transfer" (by decide)).1 ⟨plain, .custom 0⟩
      ⟨by decide +kernel, by decide +kernel, fun h => by cases h⟩).2.1 _ rfl
  · exact (hfiltered "relabel" (by decide)).2 fun c hc =>
      hc.2.1 (by decide +kernel)

end Table

end RpcDaemon
