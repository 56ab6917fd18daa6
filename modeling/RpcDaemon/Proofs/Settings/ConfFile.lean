import RpcDaemon.Proofs.Text.Blank
import RpcDaemon.Proofs.Text.Numeral
import RpcDaemon.Proofs.Text.Separator
import RpcDaemon.Settings.ConfFile

/-!
# What conf files say

Which keys and values the lines of a text say, which of them do not fit, and what the settings are
if all of them fit. The last line with a key holds, and no key touches the setting of another. Keys
that are noted as not known hold no line feed. Main statements: `ConfFile.parse_gathers` and
`ConfFile.newline_notMem_of_ignored`.
-/

namespace RpcDaemon

namespace ConfFile

/-! ## Lines -/

/-- A line says a key and a value, or a key alone. -/
inductive Says (line : List Char) : Entry → Prop
  | pair {key value : List Char} (hkey : '=' ∉ key)
      (h : significant line = key ++ '=' :: value) :
      Says line ⟨String.ofList ((Chars.trim key).dropWhile fun c => c == '-'),
        String.ofList (Chars.trim value)⟩
  | alone (hne : significant line ≠ []) (h : '=' ∉ significant line) :
      Says line ⟨String.ofList ((significant line).dropWhile fun c => c == '-'), ""⟩

/-- **A line has the entry that it says**, and no other. -/
theorem entry?_eq_some_iff {line : List Char} {e : Entry} : entry? line = some e ↔ Says line e := by
  unfold entry?
  split
  · rename_i hnil
    constructor
    · intro h
      cases h
    · intro h
      cases h with
      | pair _ h => simp [hnil] at h
      | alone hne _ => exact absurd hnil hne
  · rename_i hne
    constructor
    · intro h
      cases hsplit : Chars.splitFirst? '=' (significant line) with
      | none =>
        rw [hsplit] at h
        cases h
        exact Says.alone hne (Chars.splitFirst?_eq_none_iff.mp hsplit)
      | some parts =>
        obtain ⟨key, value⟩ := parts
        rw [hsplit] at h
        cases h
        obtain ⟨hkey, hbody⟩ := Chars.splitFirst?_eq_some_iff.mp hsplit
        exact Says.pair hkey hbody
    · intro h
      cases h with
      | pair hkey h => rw [Chars.splitFirst?_eq_some_iff.mpr ⟨hkey, h⟩]
      | alone _ h => rw [Chars.splitFirst?_eq_none_iff.mpr h]

/-- A carriage return at the end of a line is a blank, or part of a comment. -/
theorem significant_dropReturn (line : List Char) :
    significant (dropReturn line) = significant line := by
  unfold dropReturn
  split
  · rename_i hlast
    obtain ⟨front, rfl⟩ := List.getLast?_eq_some_iff.mp hlast
    have hreturn : ∀ c ∈ ['\r'], isBlank c = true := List.forall_mem_singleton.mpr rfl
    rw [List.dropLast_concat, significant, significant, List.takeWhile_append]
    split
    · rename_i hall
      rw [(List.takeWhile_prefix _).eq_of_length hall]
      exact (Chars.trim_append_blanks (List.forall_mem_nil _) hreturn front).symm
    · rfl
  · rfl

/-- The entries of a text are those of what stands between its line feeds, in order. -/
theorem entries_eq (text : String) :
    entries text = (Chars.splitOn '\n' text.toList).filterMap entry? := by
  have hreturn : ∀ line, entry? (dropReturn line) = entry? line := fun line => by
    unfold entry?
    rw [significant_dropReturn]
  rw [entries, lines]
  split
  · rename_i hnil
    exact absurd (List.reverse_eq_nil_iff.mp hnil) (Chars.splitOn_ne_nil '\n' text.toList)
  · rename_i last before hsplit
    rw [List.reverse_eq_iff.mp hsplit, List.reverse_cons, List.filterMap_append,
      List.filterMap_append, List.filterMap_map]
    congr 1
    · exact congrFun (congrArg List.filterMap (funext hreturn)) _
    · cases last <;> rfl

theorem entries_append (a b : String) : entries (a ++ "\n" ++ b) = entries a ++ entries b := by
  have hlist : (a ++ "\n" ++ b).toList = a.toList ++ '\n' :: b.toList := by
    rw [String.toList_append, String.toList_append, List.append_assoc]
    rfl
  rw [entries_eq, entries_eq, entries_eq, ← List.filterMap_append, ← Chars.splitOn_append_cons,
    hlist]

/-! ## Values -/

theorem port?_eq_some_iff {value : String} {p : UInt16} :
    port? value = some p ↔ Numeral.Writes value.toList p.toNat := by
  rw [port?, Option.map_eq_some_iff]
  constructor
  · rintro ⟨n, hn, rfl⟩
    obtain ⟨hwrites, hlt⟩ := Numeral.unsigned?_eq_some_iff.mp hn
    rwa [UInt16.toNat_ofNat_of_lt' hlt]
  · intro h
    exact ⟨p.toNat, Numeral.unsigned?_eq_some_iff.mpr ⟨h, p.toNat_lt⟩, UInt16.ofNat_toNat⟩

theorem count?_eq_some_iff {value : String} {n : UInt64} :
    count? value = some n ↔ Numeral.Writes value.toList n.toNat := by
  rw [count?, Option.map_eq_some_iff]
  constructor
  · rintro ⟨m, hm, rfl⟩
    obtain ⟨hwrites, hlt⟩ := Numeral.unsigned?_eq_some_iff.mp hm
    rwa [UInt64.toNat_ofNat_of_lt' hlt]
  · intro h
    exact ⟨n.toNat, Numeral.unsigned?_eq_some_iff.mpr ⟨h, n.toNat_lt⟩, UInt64.ofNat_toNat⟩

/-- What a truth value is written as: a word in small or capital letters, or a number of 64 bits. -/
inductive Tells (value : String) : Bool → Prop
  | yes (h : lowered value ∈ ["", "true", "yes"]) : Tells value true
  | no (h : lowered value ∈ ["false", "no"]) : Tells value false
  | number {n : Int} (h : Numeral.WritesInt (lowered value).toList n)
      (hlow : -9223372036854775808 ≤ n) (hhigh : n < 9223372036854775808) : Tells value (n != 0)

theorem flag?_eq_some_iff {value : String} {b : Bool} : flag? value = some b ↔ Tells value b := by
  have hnumber : ∀ {n : Int}, Numeral.signed? 9223372036854775808 (lowered value).toList = some n ↔
      Numeral.WritesInt (lowered value).toList n ∧ -9223372036854775808 ≤ n ∧
        n < 9223372036854775808 := Numeral.signed?_eq_some_iff (by decide)
  have hyes : lowered value ∈ ["", "true", "yes"] ↔
      lowered value = "" ∨ lowered value = "true" ∨ lowered value = "yes" := by simp
  have hno : lowered value ∈ ["false", "no"] ↔
      lowered value = "false" ∨ lowered value = "no" := by simp
  constructor
  · intro h
    unfold flag? at h
    dsimp only at h
    split at h
    · rename_i hword
      cases h
      exact Tells.yes (hyes.mpr hword)
    · split at h
      · rename_i hword
        cases h
        exact Tells.no (hno.mpr hword)
      · obtain ⟨n, hn, rfl⟩ := Option.map_eq_some_iff.mp h
        obtain ⟨hwrites, hlow, hhigh⟩ := hnumber.mp hn
        exact Tells.number hwrites hlow hhigh
  · intro h
    unfold flag?
    dsimp only
    cases h with
    | yes h => rw [if_pos (hyes.mp h)]
    | no h =>
      rw [if_neg _, if_pos (hno.mp h)]
      rcases hno.mp h with h | h <;> rw [h] <;> decide
    | number h hlow hhigh =>
      have hn := hnumber.mpr ⟨h, hlow, hhigh⟩
      -- No number is written as one of the words.
      rw [if_neg, if_neg, hn]
      · rfl
      · rintro (hword | hword) <;> rw [hword] at hn <;> cases hn
      · rintro (hword | hword | hword) <;> rw [hword] at hn <;> cases hn

/-! ## Entries that do not fit -/

/-- The keys of truth values. -/
def flagKeys : List String := ["rpcssl", "testnet", "regtest", "disablesafemode"]

/-- An entry whose value is not one for its key. -/
inductive Misfit (e : Entry) : Prop
  | port (hkey : e.key = "rpcport") (h : ∀ p : UInt16, ¬Numeral.Writes e.value.toList p.toNat)
  | threads (hkey : e.key = "rpcthreads")
      (h : ∀ n : UInt64, ¬Numeral.Writes e.value.toList n.toNat)
  | flag (hkey : e.key ∈ flagKeys) (h : ∀ b, ¬Tells e.value b)

/-- An entry does not fit exactly if its value is not read for its key. -/
theorem misfit_iff {e : Entry} :
    Misfit e ↔ (e.key = "rpcport" ∧ port? e.value = none) ∨
      (e.key = "rpcthreads" ∧ count? e.value = none) ∨
      (e.key ∈ flagKeys ∧ flag? e.value = none) := by
  simp only [Option.eq_none_iff_forall_ne_some, ne_eq, port?_eq_some_iff, count?_eq_some_iff,
    flag?_eq_some_iff]
  constructor
  · rintro (⟨hkey, h⟩ | ⟨hkey, h⟩ | ⟨hkey, h⟩)
    · exact Or.inl ⟨hkey, h⟩
    · exact Or.inr (Or.inl ⟨hkey, h⟩)
    · exact Or.inr (Or.inr ⟨hkey, h⟩)
  · rintro (⟨hkey, h⟩ | ⟨hkey, h⟩ | ⟨hkey, h⟩)
    · exact Misfit.port hkey h
    · exact Misfit.threads hkey h
    · exact Misfit.flag hkey h

section Fitting

variable {e : Entry} (h : ¬Misfit e)
include h

theorem port?_ne_none_of_fits (hkey : e.key = "rpcport") : port? e.value ≠ none := fun hnone =>
  h (misfit_iff.mpr (Or.inl ⟨hkey, hnone⟩))

theorem count?_ne_none_of_fits (hkey : e.key = "rpcthreads") : count? e.value ≠ none := fun hnone =>
  h (misfit_iff.mpr (Or.inr (Or.inl ⟨hkey, hnone⟩)))

theorem flag?_ne_none_of_fits (hkey : e.key ∈ flagKeys) : flag? e.value ≠ none := fun hnone =>
  h (misfit_iff.mpr (Or.inr (Or.inr ⟨hkey, hnone⟩)))

end Fitting

/-! ## Settings -/

/-- The value on the last line with a key. -/
def lastValue? (key : String) (es : List Entry) : Option String :=
  (es.reverse.find? fun e => e.key == key).map Entry.value

/-- Behind the last line with a key stands no other line with it. -/
theorem lastValue?_eq_some_iff {key value : String} {es : List Entry} :
    lastValue? key es = some value ↔
      ∃ before after, es = before ++ ⟨key, value⟩ :: after ∧ ∀ f ∈ after, f.key ≠ key := by
  unfold lastValue?
  rw [Option.map_eq_some_iff]
  simp only [List.find?_eq_some_iff_append, beq_iff_eq, Bool.not_eq_true', beq_eq_false_iff_ne]
  constructor
  · rintro ⟨e, ⟨rfl, after, before, hes, hafter⟩, rfl⟩
    refine ⟨before.reverse, after.reverse, ?_, fun f hf => hafter f (List.mem_reverse.mp hf)⟩
    rw [← List.reverse_reverse es, hes, List.reverse_append, List.reverse_cons, List.append_assoc]
    rfl
  · rintro ⟨before, after, rfl, hafter⟩
    refine ⟨⟨key, value⟩, ⟨rfl, after.reverse, before.reverse, ?_, fun f hf =>
      hafter f (List.mem_reverse.mp hf)⟩, rfl⟩
    rw [List.reverse_append, List.reverse_cons, List.append_assoc]
    rfl

theorem lastValue?_cons (key : String) (e : Entry) (es : List Entry) :
    lastValue? key (e :: es) =
      (lastValue? key es).or (if e.key = key then some e.value else none) := by
  unfold lastValue?
  rw [List.reverse_cons, List.find?_append, Option.map_or]
  by_cases hkey : e.key = key <;> simp [hkey]

/-- What a setting is after some lines: the converted value of the last line with its key, or what
it was before. -/
def held {α : Type} (key : String) (convert : String → Option α) (es : List Entry) (old : α) : α :=
  ((lastValue? key es).bind convert).getD old

section Held

variable {α : Type} {key : String} {convert : String → Option α} {old : α}

theorem held_nil : held key convert [] old = old := rfl

theorem held_singleton (e : Entry) :
    held key convert [e] old = if e.key = key then (convert e.value).getD old else old := by
  unfold held
  rw [lastValue?_cons]
  by_cases hkey : e.key = key <;> simp [hkey, lastValue?]

/-- Lines that are converted hold against those before them. -/
theorem held_cons (e : Entry) {es : List Entry}
    (h : ∀ f ∈ es, f.key = key → convert f.value ≠ none) :
    held key convert (e :: es) old = held key convert es (held key convert [e] old) := by
  cases hlast : lastValue? key es with
  | none =>
    rw [held, held, lastValue?_cons, hlast, Option.none_or, held_singleton]
    by_cases hkey : e.key = key <;> simp [hkey]
  | some value =>
    obtain ⟨before, after, rfl, -⟩ := lastValue?_eq_some_iff.mp hlast
    have hconvert := h ⟨key, value⟩ (List.mem_append_right before List.mem_cons_self) rfl
    obtain ⟨v, hv⟩ := Option.ne_none_iff_exists'.mp hconvert
    rw [held, held, lastValue?_cons, hlast, Option.some_or, Option.bind_some, hv]
    rfl

end Held

/-- The keys that are known. -/
def knownKeys : List String :=
  ["rpcuser", "rpcpassword", "rpcport", "rpcallowip", "rpcthreads", "rpcssl",
    "rpcsslcertificatechainfile", "rpcsslprivatekeyfile", "rpcsslciphers", "testnet", "regtest",
    "disablesafemode", "datadir", "debug"]

/-- What some lines make of settings. -/
def gathered (i : Import) (es : List Entry) : Import where
  settings := {
    dataDir := held "datadir" some es i.settings.dataDir
    network := {
      testnet := held "testnet" flag? es i.settings.network.testnet
      regtest := held "regtest" flag? es i.settings.network.regtest
      network := i.settings.network.network }
    rpc := {
      user := held "rpcuser" some es i.settings.rpc.user
      password := held "rpcpassword" some es i.settings.rpc.password
      allowIps := i.settings.rpc.allowIps ++
        (es.filter fun e => e.key == "rpcallowip").map Entry.value
      port := held "rpcport" (fun v => (port? v).map some) es i.settings.rpc.port
      threads := held "rpcthreads" count? es i.settings.rpc.threads
      ssl := held "rpcssl" flag? es i.settings.rpc.ssl
      sslCert := held "rpcsslcertificatechainfile" some es i.settings.rpc.sslCert
      sslKey := held "rpcsslprivatekeyfile" some es i.settings.rpc.sslKey
      sslCiphers := held "rpcsslciphers" some es i.settings.rpc.sslCiphers
      disableSafeMode := held "disablesafemode" flag? es i.settings.rpc.disableSafeMode
      maxBodyBytes := i.settings.rpc.maxBodyBytes }
    logging := {
      filter := held "debug" (fun v => some (debugFilter v)) es i.settings.logging.filter
      jsonFormat := i.settings.logging.jsonFormat } }
  ignored := i.ignored ++ (es.map Entry.key).filter fun key => key ∉ knownKeys

/-- No lines change nothing. -/
theorem gathered_nil (i : Import) : gathered i [] = i := by
  simp [gathered, held_nil]

/-- **Lines that fit are gathered one after the other.** -/
theorem gathered_cons (i : Import) (e : Entry) {es : List Entry} (h : ∀ f ∈ es, ¬Misfit f) :
    gathered i (e :: es) = gathered (gathered i [e]) es := by
  have htext : ∀ key old, held key some (e :: es) old = held key some es (held key some [e] old) :=
    fun key old => held_cons e fun f _ _ => Option.some_ne_none f.value
  have hfilter : ∀ old, held "debug" (fun v => some (debugFilter v)) (e :: es) old = _ := fun old =>
    held_cons e fun f _ _ => Option.some_ne_none (debugFilter f.value)
  have hport : ∀ old, held "rpcport" (fun v => (port? v).map some) (e :: es) old = _ := fun old =>
    held_cons e fun f hf hkey => by simpa using port?_ne_none_of_fits (h f hf) hkey
  have hcount : ∀ old, held "rpcthreads" count? (e :: es) old = _ := fun old =>
    held_cons e fun f hf hkey => count?_ne_none_of_fits (h f hf) hkey
  have hflag : ∀ key ∈ flagKeys, ∀ old, held key flag? (e :: es) old =
      held key flag? es (held key flag? [e] old) := fun key hmem old =>
    held_cons e fun f hf hkey => flag?_ne_none_of_fits (h f hf) (hkey ▸ hmem)
  have hcons : e :: es = [e] ++ es := rfl
  simp only [gathered, htext, hfilter, hport, hcount, hflag "rpcssl" (by decide),
    hflag "testnet" (by decide), hflag "regtest" (by decide),
    hflag "disablesafemode" (by decide)]
  rw [hcons, List.filter_append, List.map_append, List.map_append, List.filter_append,
    List.append_assoc, List.append_assoc]

/-! ## Reading -/

/-- A value that is not read for its key is an error that names both. -/
theorem apply_of_misfit (i : Import) {e : Entry} (h : Misfit e) :
    apply i e = .error (.invalidValue e.key e.value) := by
  obtain ⟨key, value⟩ := e
  rcases misfit_iff.mp h with ⟨rfl, hnone⟩ | ⟨rfl, hnone⟩ | ⟨hkey, hnone⟩
  · simp [apply, hnone, read, Except.map]
  · simp [apply, hnone, read, Except.map]
  · simp only [flagKeys, List.mem_cons, List.not_mem_nil, or_false] at hkey
    rcases hkey with rfl | rfl | rfl | rfl <;> simp [apply, hnone, read, Except.map]

/-- **An entry that fits** changes what its key stands for, and nothing else. -/
theorem apply_of_fits (i : Import) {e : Entry} (h : ¬Misfit e) :
    apply i e = .ok (gathered i [e]) := by
  obtain ⟨key, value⟩ := e
  unfold apply
  dsimp only
  split
  case h_3 =>
    obtain ⟨p, hp⟩ := Option.ne_none_iff_exists'.mp (port?_ne_none_of_fits h rfl)
    simp [gathered, held_singleton, knownKeys, Import.onServer, read, Except.map, hp]
  case h_5 =>
    obtain ⟨n, hn⟩ := Option.ne_none_iff_exists'.mp (count?_ne_none_of_fits h rfl)
    simp [gathered, held_singleton, knownKeys, Import.onServer, read, Except.map, hn]
  case h_6 | h_10 | h_11 | h_12 =>
    obtain ⟨b, hb⟩ := Option.ne_none_iff_exists'.mp (flag?_ne_none_of_fits h (by simp [flagKeys]))
    simp [gathered, held_singleton, knownKeys, Import.onServer, Import.onNetwork, read, Except.map,
      hb]
  case h_15 =>
    -- The key is none of those above.
    simp only [imp_false] at *
    simp [gathered, held_singleton, knownKeys, *]
  all_goals simp [gathered, held_singleton, knownKeys, Import.onServer]

theorem applyAll_append (i : Import) (es fs : List Entry) :
    applyAll i (es ++ fs) = (applyAll i es).bind fun i' => applyAll i' fs :=
  List.foldlM_append

/-- **Entries that all fit** are gathered. -/
theorem applyAll_of_fits (i : Import) {es : List Entry} (h : ∀ e ∈ es, ¬Misfit e) :
    applyAll i es = .ok (gathered i es) := by
  induction es generalizing i with
  | nil =>
    rw [gathered_nil]
    rfl
  | cons e es ih =>
    obtain ⟨he, hes⟩ := List.forall_mem_cons.mp h
    rw [applyAll, List.foldlM_cons, apply_of_fits i he, gathered_cons i e hes]
    exact ih (gathered i [e]) hes

/-- **The first entry that does not fit** is the error, whatever follows it. -/
theorem applyAll_of_misfit (i : Import) {before : List Entry} {e : Entry} (after : List Entry)
    (hbefore : ∀ f ∈ before, ¬Misfit f) (h : Misfit e) :
    applyAll i (before ++ e :: after) = .error (.invalidValue e.key e.value) := by
  rw [applyAll_append, applyAll_of_fits i hbefore, Except.bind, applyAll, List.foldlM_cons,
    apply_of_misfit _ h]
  rfl

/-- Either all entries fit, or there is a first one that does not. -/
theorem fits_or_first_misfit (es : List Entry) :
    (∀ e ∈ es, ¬Misfit e) ∨
      ∃ before e after, es = before ++ e :: after ∧ (∀ f ∈ before, ¬Misfit f) ∧ Misfit e := by
  induction es with
  | nil => exact Or.inl (List.forall_mem_nil _)
  | cons e es ih =>
    by_cases he : Misfit e
    · exact Or.inr ⟨[], e, es, rfl, List.forall_mem_nil _, he⟩
    · rcases ih with hes | ⟨before, f, after, rfl, hbefore, hf⟩
      · exact Or.inl (List.forall_mem_cons.mpr ⟨he, hes⟩)
      · exact Or.inr ⟨e :: before, f, after, rfl, List.forall_mem_cons.mpr ⟨he, hbefore⟩, hf⟩

theorem applyAll_eq_ok_iff {i i' : Import} {es : List Entry} :
    applyAll i es = .ok i' ↔ (∀ e ∈ es, ¬Misfit e) ∧ i' = gathered i es := by
  constructor
  · intro h
    rcases fits_or_first_misfit es with hfits | ⟨before, e, after, rfl, hbefore, he⟩
    · rw [applyAll_of_fits i hfits] at h
      exact ⟨hfits, (Except.ok.inj h).symm⟩
    · rw [applyAll_of_misfit i after hbefore he] at h
      cases h
  · rintro ⟨hfits, rfl⟩
    exact applyAll_of_fits i hfits

theorem applyAll_eq_error_iff {i : Import} {es : List Entry} {err : SettingsError} :
    applyAll i es = .error err ↔ ∃ before e after, es = before ++ e :: after ∧
      (∀ f ∈ before, ¬Misfit f) ∧ Misfit e ∧ err = .invalidValue e.key e.value := by
  constructor
  · intro h
    rcases fits_or_first_misfit es with hfits | ⟨before, e, after, rfl, hbefore, he⟩
    · rw [applyAll_of_fits i hfits] at h
      cases h
    · rw [applyAll_of_misfit i after hbefore he] at h
      exact ⟨before, e, after, rfl, hbefore, he, (Except.error.inj h).symm⟩
  · rintro ⟨before, e, after, rfl, hbefore, he, rfl⟩
    exact applyAll_of_misfit i after hbefore he

/-- **The settings are what the lines of the text say.** Each line that counts says a key and a
value. Reading fails exactly if a value does not fit its key, and names the first that does not.
Otherwise the last line with a key holds, the patterns of peers are collected, and the keys that are
not known are noted. A text behind another one goes on from the settings of the first. -/
theorem parse_gathers (a b : String) :
    (entries a = (Chars.splitOn '\n' a.toList).filterMap entry? ∧
        ∀ line e, entry? line = some e ↔ Says line e) ∧
      (∀ err, parse a = .error err ↔ ∃ before e after, entries a = before ++ e :: after ∧
        (∀ f ∈ before, ¬Misfit f) ∧ Misfit e ∧ err = .invalidValue e.key e.value) ∧
      (∀ i, parse a = .ok i ↔
        (∀ e ∈ entries a, ¬Misfit e) ∧ i = gathered .initial (entries a)) ∧
      parse (a ++ "\n" ++ b) = (parse a).bind fun i => applyAll i (entries b) := by
  refine ⟨⟨entries_eq a, fun _ _ => entry?_eq_some_iff⟩, fun _ => applyAll_eq_error_iff,
    fun _ => applyAll_eq_ok_iff, ?_⟩
  rw [parse, parse, entries_append, applyAll_append]

/-- The first value that does not fit is named, without the comment behind it. -/
example : parse "rpcport=1\nrpcssl=maybe # off\nrpcport=x" =
    .error (.invalidValue "rpcssl" "maybe") := by rfl

/-! ## Keys that are not known -/

/-- A key is part of its line. -/
theorem key_subset_line {line : List Char} {e : Entry} (h : entry? line = some e) :
    e.key.toList ⊆ line := by
  have hbody : significant line ⊆ line :=
    List.Subset.trans (Chars.trim_subset _) (List.takeWhile_prefix _).subset
  cases entry?_eq_some_iff.mp h with
  | @pair key value _ hsplit =>
    have hkey : key ⊆ significant line := by
      rw [hsplit]
      exact List.subset_append_left key _
    rw [String.toList_ofList]
    exact List.Subset.trans (List.dropWhile_suffix _).subset
      (List.Subset.trans (Chars.trim_subset key) (List.Subset.trans hkey hbody))
  | alone _ _ =>
    rw [String.toList_ofList]
    exact List.Subset.trans (List.dropWhile_suffix _).subset hbody

/-- No key holds a line feed. -/
theorem newline_notMem_key {text : String} {e : Entry} (h : e ∈ entries text) :
    '\n' ∉ e.key.toList := by
  rw [entries_eq] at h
  obtain ⟨line, hline, he⟩ := List.mem_filterMap.mp h
  exact fun hmem => Chars.notMem_of_mem_splitOn hline (key_subset_line he hmem)

/-- **No line feed stands in a key that is noted as not known.** -/
theorem newline_notMem_of_ignored {text : String} {i : Import} (h : parse text = .ok i) {k : String}
    (hk : k ∈ i.ignored) : '\n' ∉ k.toList := by
  obtain ⟨-, rfl⟩ := applyAll_eq_ok_iff.mp h
  have hkey : k ∈ (entries text).map Entry.key := (List.mem_filter.mp hk).1
  obtain ⟨e, he, rfl⟩ := List.mem_map.mp hkey
  exact newline_notMem_key he

end ConfFile

end RpcDaemon
