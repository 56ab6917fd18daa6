import RpcDaemon.Proofs.Toml.Statement
import RpcDaemon.Toml.Document

/-!
# TOML documents read back

A document that is written is read back as its entries, and so is every text with the same lines and
any empty lines and comments before, between and behind them. Main statement:
`Document.read?_laidOut`.
-/

namespace RpcDaemon

namespace Toml

/-! ## Lines -/

/-- A line that says something. -/
inductive Line where
  /-- A field. -/
  | field (f : String × Written)
  /-- The header of a table. -/
  | header (name : String)

namespace Line

/-- The text of a line. -/
def chars : Line → List Char
  | field f => fieldLine f
  | header name => headerLine name

/-- What a line says. -/
def statement : Line → Statement
  | field f => fieldStatement f
  | header name => .header [] name

/-- The key of a line, or the name in it. -/
def key : Line → String
  | field f => f.1
  | header name => name

/-- A line whose key needs no quotes is read as what it says. -/
theorem reads {l : Line} (h : IsBare l.key) : Reads l.chars [l.statement] := by
  cases l with
  | field f => exact reads_fieldLine h
  | header name => exact reads_headerLine h

end Line

/-- A text that consists of some lines, with empty lines and comments before, between and behind
them. -/
def Spaced : List Line → List Char → Prop
  | [], cs => Idle cs
  | l :: ls, cs => ∃ b more, Idle b ∧ Spaced ls more ∧ cs = b ++ (l.chars ++ more)

/-- A line by itself. -/
theorem spaced_singleton (l : Line) : Spaced [l] l.chars :=
  ⟨[], [], .nil, .nil, (List.append_nil _).symm⟩

/-- Empty lines and comments before a text. -/
theorem Spaced.idle_append {ls : List Line} {a cs : List Char} (ha : Idle a)
    (h : Spaced ls cs) : Spaced ls (a ++ cs) := by
  cases ls with
  | nil => exact ha.append h
  | cons l ls =>
    obtain ⟨b, more, hb, hmore, rfl⟩ := h
    exact ⟨a ++ b, more, ha.append hb, hmore, (List.append_assoc _ _ _).symm⟩

/-- Two texts one after the other. -/
theorem Spaced.append {ls ls' : List Line} {cs cs' : List Char} (h : Spaced ls cs)
    (h' : Spaced ls' cs') : Spaced (ls ++ ls') (cs ++ cs') := by
  induction ls generalizing cs with
  | nil => exact h'.idle_append h
  | cons l ls ih =>
    obtain ⟨b, more, hb, hmore, rfl⟩ := h
    refine ⟨b, more ++ cs', hb, ih hmore, ?_⟩
    simp only [List.append_assoc]

/-- **Lines are read as what they say**, whatever empty lines and comments stand around them. -/
theorem Spaced.reads {ls : List Line} {cs : List Char} (h : Spaced ls cs)
    (hkeys : ∀ l ∈ ls, IsBare l.key) : Reads cs (ls.map Line.statement) := by
  induction ls generalizing cs with
  | nil => exact Idle.reads h
  | cons l ls ih =>
    obtain ⟨b, more, hb, hmore, rfl⟩ := h
    have hline := Line.reads (hkeys l List.mem_cons_self)
    have hrest := ih hmore fun m hm => hkeys m (List.mem_cons_of_mem l hm)
    exact hb.reads.append (hline.append hrest)

/-! ## Entries -/

/-- The keys of a table. -/
def keys (entries : Entries) : List String := entries.map fun e => e.1

namespace Entries

/-- A key that does not stand in a table has no value. -/
theorem get?_of_notMem {key : String} {entries : Entries} (h : key ∉ keys entries) :
    get? key entries = none := by
  induction entries with
  | nil => rfl
  | cons e entries ih =>
    rw [keys, List.map_cons, List.mem_cons, not_or] at h
    rw [get?, if_neg fun heq => h.1 heq.symm]
    exact ih h.2

/-- The last key of a table has the last value, if it stands there once. -/
theorem get?_append_singleton {key : String} {entries : Entries} (h : key ∉ keys entries)
    (v : Value) : get? key (entries ++ [(key, v)]) = some v := by
  induction entries with
  | nil => exact if_pos rfl
  | cons e entries ih =>
    rw [keys, List.map_cons, List.mem_cons, not_or] at h
    rw [List.cons_append, get?, if_neg fun heq => h.1 heq.symm]
    exact ih h.2

/-- A value is put over that of the last key, if it stands there once. -/
theorem put_append_singleton {key : String} {entries : Entries} (h : key ∉ keys entries)
    (v w : Value) : put key w (entries ++ [(key, v)]) = entries ++ [(key, w)] := by
  induction entries with
  | nil => exact if_pos rfl
  | cons e entries ih =>
    rw [keys, List.map_cons, List.mem_cons, not_or] at h
    rw [List.cons_append, put, if_neg fun heq => h.1 heq.symm]
    exact congrArg (e :: ·) (ih h.2)

end Entries

/-- The entries that fields make. -/
def fieldEntries (fields : Fields) : Entries := fields.map fun f => (f.1, f.2.value)

theorem keys_fieldEntries (fields : Fields) :
    keys (fieldEntries fields) = fields.map fun f => f.1 := by
  rw [keys, fieldEntries, List.map_map]
  rfl

theorem keys_append (a b : Entries) : keys (a ++ b) = keys a ++ keys b :=
  List.map_append

/-- A new key is set behind all entries. -/
theorem set?_of_notMem {key : String} {entries : Entries} (h : key ∉ keys entries) (v : Value) :
    set? [] key v entries = some (entries ++ [(key, v)]) := by
  have hget := Entries.get?_of_notMem h
  rw [set?, alterAt?, if_neg fun h => h.1 rfl, hget]

/-! ## Statements put together -/

/-- A field before all headers is added to the root. -/
theorem step?_root {entries : Entries} {f : String × Written} (h : f.1 ∉ keys entries) :
    Draft.step? ⟨[], entries⟩ (fieldStatement f) =
      some ⟨[], entries ++ [(f.1, f.2.value)]⟩ := by
  show (set? [] f.1 f.2.value entries).map _ = _
  rw [set?_of_notMem h]
  rfl

/-- A field behind a header is added to the table of that header. -/
theorem step?_table {name : String} {before sub : Entries} {f : String × Written}
    (hname : name ∉ keys before) (h : f.1 ∉ keys sub) :
    Draft.step? ⟨[name], before ++ [(name, .table .header sub)]⟩ (fieldStatement f) =
      some ⟨[name], before ++ [(name, .table .header (sub ++ [(f.1, f.2.value)]))]⟩ := by
  rw [fieldStatement, Draft.step?, alterAt?, Entries.get?_append_singleton hname]
  dsimp only
  rw [if_pos (show Walk.header.mayEnter Origin.header = true from rfl), alterAt?, set?_of_notMem h, Option.map_some, Option.map_some,
    Entries.put_append_singleton hname]

/-- A header opens a new table behind all entries. -/
theorem step?_header {current : List String} {entries : Entries} {name : String}
    (h : name ∉ keys entries) :
    Draft.step? ⟨current, entries⟩ (.header [] name) =
      some ⟨[name], entries ++ [(name, .table .header [])]⟩ := by
  have hget := Entries.get?_of_notMem h
  rw [Draft.step?, open?, alterAt?, hget]
  rfl

/-- Fields before all headers are added to the root one by one. -/
theorem foldlM_root (fields : Fields) (entries : Entries)
    (h : (keys entries ++ fields.map fun f => f.1).Nodup) :
    (fields.map fieldStatement).foldlM Draft.step? ⟨[], entries⟩ =
      some ⟨[], entries ++ fieldEntries fields⟩ := by
  induction fields generalizing entries with
  | nil =>
    rw [fieldEntries, List.map_nil, List.map_nil, List.append_nil]
    rfl
  | cons f fields ih =>
    rw [List.map_cons] at h
    have hf : f.1 ∉ keys entries := fun hmem =>
      (List.nodup_append.mp h).2.2 f.1 hmem f.1 List.mem_cons_self rfl
    have hrest : (keys (entries ++ [(f.1, f.2.value)]) ++ fields.map fun f => f.1).Nodup := by
      rw [keys_append, List.append_assoc]
      exact h
    rw [List.map_cons, List.foldlM_cons, step?_root hf, Option.bind_eq_bind, Option.bind_some,
      ih _ hrest, List.append_assoc]
    rfl

/-- Fields behind a header are added to its table one by one. -/
theorem foldlM_table {name : String} {before : Entries} (hname : name ∉ keys before)
    (fields : Fields) (sub : Entries) (h : (keys sub ++ fields.map fun f => f.1).Nodup) :
    (fields.map fieldStatement).foldlM Draft.step?
        ⟨[name], before ++ [(name, .table .header sub)]⟩ =
      some ⟨[name], before ++ [(name, .table .header (sub ++ fieldEntries fields))]⟩ := by
  induction fields generalizing sub with
  | nil =>
    rw [fieldEntries, List.map_nil, List.map_nil, List.append_nil]
    rfl
  | cons f fields ih =>
    rw [List.map_cons] at h
    have hf : f.1 ∉ keys sub := fun hmem =>
      (List.nodup_append.mp h).2.2 f.1 hmem f.1 List.mem_cons_self rfl
    have hrest : (keys (sub ++ [(f.1, f.2.value)]) ++ fields.map fun f => f.1).Nodup := by
      rw [keys_append, List.append_assoc]
      exact h
    rw [List.map_cons, List.foldlM_cons, step?_table hname hf, Option.bind_eq_bind,
      Option.bind_some, ih _ hrest, List.append_assoc]
    rfl

namespace Document

/-- The entries of a document. -/
def entries (d : Document) : Entries :=
  fieldEntries d.root ++ d.tables.map fun t => (t.1, .table .header (fieldEntries t.2))

/-- The lines of a table. -/
def tableLines (t : String × Fields) : List Line :=
  .header t.1 :: t.2.map Line.field

/-- The lines of a document. -/
def lines (d : Document) : List Line :=
  d.root.map Line.field ++ d.tables.flatMap tableLines

/-- A document that can be written: its keys need no quotes, and no key stands twice in a table. -/
structure WellFormed (d : Document) : Prop where
  /-- The keys need no quotes. -/
  bare : ∀ l ∈ d.lines, IsBare l.key
  /-- No key of the root stands there twice. -/
  nodup : ((d.root.map fun f => f.1) ++ d.tables.map fun t => t.1).Nodup
  /-- No key of a table stands there twice. -/
  nodup_fields : ∀ t ∈ d.tables, (t.2.map fun f => f.1).Nodup

/-- A table is put together behind all entries. -/
theorem foldlM_tableLines {t : String × Fields} (ht : (t.2.map fun f => f.1).Nodup)
    {current : List String} {before : Entries} (hname : t.1 ∉ keys before) :
    ((tableLines t).map Line.statement).foldlM Draft.step? ⟨current, before⟩ =
      some ⟨[t.1], before ++ [(t.1, .table .header (fieldEntries t.2))]⟩ := by
  have hfields := foldlM_table hname t.2 [] ht
  have hlines : (tableLines t).map Line.statement =
      .header [] t.1 :: t.2.map fieldStatement := by
    rw [tableLines, List.map_cons, List.map_map]
    rfl
  rw [hlines, List.foldlM_cons, step?_header hname, Option.bind_eq_bind, Option.bind_some, hfields]
  rfl

/-- Tables are put together one by one. -/
theorem foldlM_tables (tables : List (String × Fields)) (current : List String)
    (before : Entries) (h : (keys before ++ tables.map fun t => t.1).Nodup)
    (hfields : ∀ t ∈ tables, (t.2.map fun f => f.1).Nodup) :
    ∃ last, ((tables.flatMap tableLines).map Line.statement).foldlM Draft.step?
      ⟨current, before⟩ =
        some ⟨last, before ++ tables.map fun t => (t.1, .table .header (fieldEntries t.2))⟩ := by
  induction tables generalizing current before with
  | nil =>
    refine ⟨current, ?_⟩
    rw [List.map_nil, List.append_nil]
    rfl
  | cons t tables ih =>
    rw [List.map_cons] at h
    have hname : t.1 ∉ keys before := fun hmem =>
      (List.nodup_append.mp h).2.2 t.1 hmem t.1 List.mem_cons_self rfl
    have hrest : (keys (before ++ [(t.1, .table .header (fieldEntries t.2))]) ++
        tables.map fun t => t.1).Nodup := by
      rw [keys_append, List.append_assoc]
      exact h
    obtain ⟨last, hlast⟩ := ih [t.1] _ hrest fun u hu => hfields u (List.mem_cons_of_mem t hu)
    refine ⟨last, ?_⟩
    rw [List.flatMap_cons, List.map_append, List.foldlM_append,
      foldlM_tableLines (hfields t List.mem_cons_self) hname, Option.bind_eq_bind,
      Option.bind_some, hlast, List.append_assoc]
    rfl

/-- **What the lines of a document say is put together to its entries.** -/
theorem ofStatements?_lines {d : Document} (hd : d.WellFormed) :
    ofStatements? (d.lines.map Line.statement) = some d.entries := by
  have hnodup := hd.nodup
  have hroot := foldlM_root d.root [] (List.nodup_append.mp hnodup).1
  rw [← keys_fieldEntries] at hnodup
  obtain ⟨last, hlast⟩ := foldlM_tables d.tables [] (fieldEntries d.root) hnodup hd.nodup_fields
  have hlines : (d.root.map Line.field).map Line.statement = d.root.map fieldStatement :=
    List.map_map
  rw [ofStatements?, lines, List.map_append, List.foldlM_append, hlines, hroot,
    Option.bind_eq_bind, Option.bind_some, List.nil_append, hlast]
  rfl

/-! ## Layouts -/

/-- The texts of a document: its lines, with empty lines and comments around them. -/
def LaidOut (d : Document) (cs : List Char) : Prop := Spaced d.lines cs

/-- **Every text of a document is read as its entries.** -/
theorem read?_laidOut {d : Document} (hd : d.WellFormed) {cs : List Char} (h : d.LaidOut cs) :
    read? (String.ofList cs) = some d.entries := by
  rw [(Spaced.reads h hd.bare).read?_eq, ofStatements?_lines hd]

/-- The lines of fields. -/
theorem spaced_fieldChars (fields : Fields) :
    Spaced (fields.map Line.field) (fieldChars fields) := by
  induction fields with
  | nil => exact Idle.nil
  | cons f fields ih =>
    have hline : fieldChars (f :: fields) = fieldLine f ++ fieldChars fields := by
      rw [fieldChars, List.flatMap_cons]
      congr 1
      rw [fieldLine, List.append_assoc, List.append_assoc]
      rfl
    rw [hline]
    exact Spaced.append (spaced_singleton (.field f)) ih

/-- The lines of a table. -/
theorem spaced_tableChars (t : String × Fields) : Spaced (tableLines t) (tableChars t) :=
  Spaced.append (spaced_singleton (.header t.1)) (spaced_fieldChars t.2)

/-- The lines of tables, with an empty line before each of them. -/
theorem spaced_tablesChars (tables : List (String × Fields)) :
    Spaced (tables.flatMap tableLines) (tablesChars tables) := by
  induction tables with
  | nil => exact Idle.nil
  | cons t tables ih =>
    rw [List.flatMap_cons, tablesChars, List.flatMap_cons]
    exact ((spaced_tableChars t).idle_append (.blank .nil)).append ih

/-- **The text that is written is one of the texts of a document.** -/
theorem laidOut_chars (d : Document) : d.LaidOut d.chars := by
  unfold LaidOut lines chars
  split
  · rename_i t tables hroot htables
    rw [hroot, htables, List.map_nil, List.nil_append, List.flatMap_cons]
    exact (spaced_tableChars t).append (spaced_tablesChars tables)
  · exact (spaced_fieldChars d.root).append (spaced_tablesChars d.tables)

/-- Empty lines and comments may be added before and behind a text. -/
theorem LaidOut.idle_append_idle {d : Document} {a b cs : List Char} (h : d.LaidOut cs)
    (ha : Idle a) (hb : Idle b) : d.LaidOut (a ++ (cs ++ b)) := by
  have hend : Spaced (d.lines ++ []) (cs ++ b) := Spaced.append h hb
  rw [List.append_nil] at hend
  exact hend.idle_append ha

/-! ### Below a header -/

/-- The document that is read if a header stands before the lines of another: what was in the root is
in the table that the header opens. -/
def below (name : String) (d : Document) : Document := ⟨[], (name, d.root) :: d.tables⟩

/-- Its lines are the header and those of the other. -/
theorem lines_below (name : String) (d : Document) :
    (d.below name).lines = .header name :: d.lines := by
  rw [below, lines, List.map_nil, List.nil_append, List.flatMap_cons]
  rfl

/-- A header before a text. -/
theorem LaidOut.below {d : Document} {cs : List Char} (h : d.LaidOut cs) (name : String) :
    (d.below name).LaidOut (headerLine name ++ cs) := by
  unfold LaidOut
  rw [lines_below]
  exact Spaced.append (spaced_singleton (.header name)) h

/-- A header may stand before a document that has no table with its name. -/
theorem WellFormed.below {d : Document} (hd : d.WellFormed) {name : String} (hname : IsBare name)
    (hnew : name ∉ d.tables.map fun t => t.1) : (d.below name).WellFormed := by
  obtain ⟨hroot, htables, -⟩ := List.nodup_append.mp hd.nodup
  refine ⟨?_, List.nodup_cons.mpr ⟨hnew, htables⟩, ?_⟩
  · intro l hl
    rw [lines_below] at hl
    rcases List.mem_cons.mp hl with rfl | hl
    · exact hname
    · exact hd.bare l hl
  · intro t ht
    rcases List.mem_cons.mp ht with rfl | ht
    · exact hroot
    · exact hd.nodup_fields t ht

end Document

end Toml

end RpcDaemon
