import RpcDaemon.Cli.Convert
import RpcDaemon.Proofs.Settings.ConfFile
import RpcDaemon.Proofs.Settings.RoundTrip

/-!
# Converted files

The converter copies the path of its input and the keys that are not known into comments as they
are. Where all of them may stand in a comment, the file that it writes gives back the settings of its
input; where one of them holds a control, the file is malformed; and a path with a line feed goes on
outside of the comment. Main statement: `ConvertOptions.load_converted`.
-/

namespace RpcDaemon

namespace Cli

namespace ConvertOptions

/-! ## The text that is written -/

/-- A comment on its line. -/
def commentLine (text : List Char) : List Char := '#' :: (text ++ ['\n'])

/-- The comment at the front. -/
def heading : List Char := commentLine " clamd configuration".toList

/-- The comment before the keys that are not known. -/
def keysHeading : List Char := commentLine " Not converted (no equivalent):".toList

/-- The comment that names the input. -/
def inputComment (input : List Char) : List Char := " Converted from: ".toList ++ input

/-- The comment that names a key. -/
def keyComment (key : String) : List Char := "   ".toList ++ key.toList

/-- The comments that name keys, each on its line. -/
def keyLines (keys : List String) : List Char :=
  keys.flatMap fun k => commentLine (keyComment k)

/-- The comments at the end, with an empty line before them, if there are keys to name. -/
def trailer (keys : List String) : List Char :=
  if keys.isEmpty then []
  else '\n' :: (keysHeading ++ keyLines keys)

/-- The comments at the end are these lines. -/
theorem toList_ignoredText (keys : List String) : (ignoredText keys).toList = trailer keys := by
  have hheading : "\n# Not converted (no equivalent):\n".toList = '\n' :: keysHeading := by
    decide
  have hmark : "#   ".toList = '#' :: "   ".toList := by
    decide
  have hend : "\n".toList = ['\n'] := by
    decide
  have hkeys : (String.join (keys.map fun k => "#   " ++ k ++ "\n")).toList = keyLines keys := by
    rw [String.toList_join, keyLines, List.flatMap_map]
    congr 1
    funext k
    rw [String.toList_append, String.toList_append, hmark, hend, commentLine, keyComment,
      List.append_assoc]
    rfl
  unfold ignoredText trailer
  split
  · rfl
  · rw [String.toList_append, hkeys, hheading]
    rfl

/-- The file is a heading, the text of the settings, and the comments at the end. -/
theorem render_eq (input body : String) (keys : List String) :
    render input body keys = String.ofList
      (heading ++ (commentLine (inputComment input.toList) ++
        '\n' :: (body.toList ++ trailer keys))) := by
  have hfirst : "# clamd configuration\n".toList = heading := by
    decide
  have hsecond : "# Converted from: ".toList = '#' :: " Converted from: ".toList := by
    decide
  have hempty : "\n\n".toList = ['\n', '\n'] := by
    decide
  have hchars : (render input body keys).toList =
      heading ++ (commentLine (inputComment input.toList) ++
        '\n' :: (body.toList ++ trailer keys)) := by
    unfold render inputComment
    rw [String.toList_append, String.toList_append, String.toList_append, String.toList_append,
      String.toList_append, toList_ignoredText, hfirst, hsecond, hempty]
    -- The wording itself plays no part.
    generalize " Converted from: ".toList = mark
    simp only [commentLine, List.append_assoc, List.cons_append, List.nil_append]
  rw [← hchars, String.ofList_toList]

/-! ## Comments that are comments -/

/-- A comment is a line that says nothing. -/
theorem idle_commentLine {text : List Char} (h : Toml.IsComment text) :
    Toml.Idle (commentLine text) :=
  .comment h .nil

/-- The headings are comments. -/
theorem idle_heading : Toml.Idle heading :=
  idle_commentLine (by decide)

theorem idle_keysHeading : Toml.Idle keysHeading :=
  idle_commentLine (by decide)

/-- The path may stand in its comment if it may stand in one at all. -/
theorem isComment_inputComment (input : List Char) :
    Toml.IsComment (inputComment input) ↔ Toml.IsComment input :=
  Toml.isComment_append (List.all_eq_true.mp (by decide)) input

/-- A key may stand in its comment if it may stand in one at all. -/
theorem isComment_keyComment (key : String) :
    Toml.IsComment (keyComment key) ↔ Toml.IsComment key.toList :=
  Toml.isComment_append (List.all_eq_true.mp (by decide)) key.toList

/-- What stands before the text of the settings says nothing if the path may stand in a comment. -/
theorem idle_before {input : String} (h : Toml.IsComment input.toList) :
    Toml.Idle (heading ++ (commentLine (inputComment input.toList) ++ ['\n'])) :=
  idle_heading.append
    ((idle_commentLine ((isComment_inputComment input.toList).mpr h)).append (.blank .nil))

/-- The lines of keys that may stand in comments say nothing. -/
theorem idle_keyLines {keys : List String} (h : ∀ k ∈ keys, Toml.IsComment k.toList) :
    Toml.Idle (keyLines keys) := by
  induction keys with
  | nil => exact .nil
  | cons k keys ih =>
    rw [keyLines, List.flatMap_cons]
    have hk := idle_commentLine ((isComment_keyComment k).mpr (h k List.mem_cons_self))
    exact hk.append (ih fun l hl => h l (List.mem_cons_of_mem k hl))

/-- The comments at the end say nothing if the keys may stand in comments. -/
theorem idle_trailer {keys : List String} (h : ∀ k ∈ keys, Toml.IsComment k.toList) :
    Toml.Idle (trailer keys) := by
  unfold trailer
  split
  · exact .nil
  · exact .blank (idle_keysHeading.append (idle_keyLines h))

/-- The lines of keys are not read if one of them may not stand in a comment. -/
theorem scanStatements?_keyLines {keys : List String} (hnewline : ∀ k ∈ keys, '\n' ∉ k.toList)
    (h : ∃ k ∈ keys, ¬Toml.IsComment k.toList) (fuel : Nat) :
    Toml.scanStatements? fuel (keyLines keys) = none := by
  induction keys generalizing fuel with
  | nil =>
    obtain ⟨k, hk, -⟩ := h
    cases hk
  | cons k keys ih =>
    have hlines : keyLines (k :: keys) = '#' :: (keyComment k ++ '\n' :: keyLines keys) := by
      rw [keyLines, List.flatMap_cons, commentLine, List.cons_append, List.append_assoc]
      rfl
    have hfeed : '\n' ∉ keyComment k := by
      intro hmem
      rcases List.mem_append.mp hmem with hmem | hmem
      · exact absurd hmem (by decide)
      · exact hnewline k List.mem_cons_self hmem
    rw [hlines]
    by_cases hk : Toml.IsComment k.toList
    · cases fuel with
      | zero => rfl
      | succ fuel =>
        obtain ⟨l, hl, hbad⟩ := h
        have hrest : ∃ l ∈ keys, ¬Toml.IsComment l.toList := by
          rcases List.mem_cons.mp hl with rfl | hl
          · exact absurd hk hbad
          · exact ⟨l, hl, hbad⟩
        rw [Toml.scanStatements?_hash, Toml.lineEnd?_comment ((isComment_keyComment k).mpr hk)]
        exact ih (fun l hl => hnewline l (List.mem_cons_of_mem k hl)) hrest fuel
    · exact Toml.scanStatements?_of_not_isComment
        (fun hcomment => hk ((isComment_keyComment k).mp hcomment)) hfeed fuel _

/-! ## The file that is written -/

section Rendered

variable {s : Settings} (hs : s.rpc.fitsToml = true) {input : String} {keys : List String}

include hs

/-- A file of comments that are comments gives the settings. -/
theorem ofToml?_render (hinput : Toml.IsComment input.toList)
    (hkeys : ∀ k ∈ keys, Toml.IsComment k.toList) :
    Settings.ofToml? (render input s.tomlDocument.text keys) = some s := by
  have hbefore := idle_before hinput
  have hlaid := s.tomlDocument.laidOut_chars.idle_append_idle hbefore (idle_trailer hkeys)
  rw [← Deletion.nothing_toml s.tomlDocument] at hlaid
  have hread := Settings.ofToml?_deletion hs .nothing hlaid
  rw [Deletion.nothing_toml, Deletion.nothing_settings] at hread
  rw [render_eq, Toml.Document.text, String.toList_ofList]
  simpa only [List.append_assoc, List.cons_append, List.nil_append] using hread

/-- A file of which a key may not stand in a comment gives no settings. -/
theorem ofToml?_render_of_key (hinput : Toml.IsComment input.toList)
    (hnewline : ∀ k ∈ keys, '\n' ∉ k.toList) (hkey : ∃ k ∈ keys, ¬Toml.IsComment k.toList) :
    Settings.ofToml? (render input s.tomlDocument.text keys) = none := by
  have htrailer : trailer keys = '\n' :: (keysHeading ++ keyLines keys) := by
    obtain ⟨k, hk, -⟩ := hkey
    cases keys with
    | nil => cases hk
    | cons k keys => rfl
  have hbefore := idle_before hinput
  have hreads := (s.tomlDocument.laidOut_chars.idle_append_idle hbefore
    (.blank idle_keysHeading)).reads (Settings.wellFormed_tomlDocument hs).bare
  have hread := hreads.read?_append_eq_none (List.cons_ne_nil _ _)
    (scanStatements?_keyLines hnewline hkey)
  simp only [List.append_assoc, List.cons_append, List.nil_append] at hread
  rw [Settings.ofToml?, render_eq, htrailer, Toml.Document.text, String.toList_ofList, hread]

omit hs in
/-- A file whose path may not stand in a comment gives no settings. -/
theorem ofToml?_render_of_input (hnewline : '\n' ∉ input.toList)
    (hinput : ¬Toml.IsComment input.toList) (body : String) :
    Settings.ofToml? (render input body keys) = none := by
  have hfeed : '\n' ∉ inputComment input.toList := by
    intro hmem
    rcases List.mem_append.mp hmem with hmem | hmem
    · exact absurd hmem (by decide)
    · exact hnewline hmem
  have hcomment : ¬Toml.IsComment (inputComment input.toList) := fun h =>
    hinput ((isComment_inputComment input.toList).mp h)
  have hread := idle_heading.reads.read?_append_eq_none (List.cons_ne_nil _ _)
    fun fuel => Toml.scanStatements?_of_not_isComment hcomment hfeed fuel
      ('\n' :: (body.toList ++ trailer keys))
  have htext : commentLine (inputComment input.toList) ++ '\n' :: (body.toList ++ trailer keys) =
      '#' :: (inputComment input.toList ++ '\n' :: '\n' :: (body.toList ++ trailer keys)) := by
    rw [commentLine, List.cons_append, List.append_assoc]
    rfl
  rw [Settings.ofToml?, render_eq, htext, hread]

omit hs in
/-- The comment that names a path with a header in its second line is a comment and that header. -/
theorem commentLine_of_header (first name : String) (rest : List Char) :
    commentLine (inputComment (first ++ "\n[" ++ name ++ "]").toList) ++ rest =
      commentLine (inputComment first.toList) ++ (Toml.headerLine name ++ rest) := by
  have hopen : "\n[".toList = ['\n', '['] := by
    decide
  have hclose : "]".toList = [']'] := by
    decide
  unfold inputComment
  rw [String.toList_append, String.toList_append, String.toList_append, hopen, hclose]
  -- The wording itself plays no part.
  generalize " Converted from: ".toList = mark
  simp only [commentLine, Toml.headerLine, List.append_assoc, List.cons_append, List.nil_append]

/-- What is read below a header that opens a table: the settings without the directory, which then
stands in that table. -/
theorem ofDatum?_below {name : String} (hunknown : name ∉ Settings.fields) :
    Settings.ofDatum? false (Datum.ofToml (.table .header (s.tomlDocument.below name).entries)) =
      some { s with dataDir := Settings.default.dataDir } := by
  have hdata : Datum.ofToml (.table .header (s.tomlDocument.below name).entries) =
      .ofFields ((name, .ofFields (Toml.fieldData s.tomlDocument.root)) ::
        s.tomlDocument.tables.map fun t => (t.1, Datum.ofFields (Toml.fieldData t.2))) := by
    rw [Toml.Document.ofToml_entries]
    rfl
  have hrest : Datum.ofFields
      (s.tomlDocument.tables.map fun t => (t.1, Datum.ofFields (Toml.fieldData t.2))) =
        Deletion.directory.datum s.datum := by
    rw [← Settings.ofToml_tomlDocument hs .header, ← Deletion.ofToml_toml,
      Deletion.directory_toml, Toml.Document.ofToml_entries]
    rfl
  rw [hdata, Settings.ofDatum?_cons false hunknown, hrest, Settings.ofDatum?_deletion]
  rfl

/-- **A path that opens a table takes the directory out of the settings**: its first line ends the
comment, and what the settings have outside of tables then stands in that table. -/
theorem ofToml?_render_of_header {first name : String} (hfirst : Toml.IsComment first.toList)
    (hname : Toml.IsBare name) (hunknown : name ∉ Settings.fields)
    (hkeys : ∀ k ∈ keys, Toml.IsComment k.toList) :
    Settings.ofToml? (render (first ++ "\n[" ++ name ++ "]") s.tomlDocument.text keys) =
      some { s with dataDir := Settings.default.dataDir } := by
  have hnew : name ∉ s.tomlDocument.tables.map fun t => t.1 := fun h =>
    hunknown (List.mem_cons_of_mem "data_dir" h)
  have hbefore : Toml.Idle (heading ++ commentLine (inputComment first.toList)) :=
    idle_heading.append (idle_commentLine ((isComment_inputComment first.toList).mpr hfirst))
  have hbody := (s.tomlDocument.laidOut_chars.idle_append_idle (.blank .nil)
    (idle_trailer hkeys)).below name
  have hread := Toml.Document.read?_laidOut
    ((Settings.wellFormed_tomlDocument hs).below hname hnew)
    (hbody.idle_append_idle hbefore .nil)
  rw [List.append_nil, List.append_assoc, List.singleton_append] at hread
  rw [Settings.ofToml?, render_eq, Toml.Document.text, String.toList_ofList,
    commentLine_of_header, hread]
  exact ofDatum?_below hs hunknown

end Rendered

/-! ## Running the converter -/

section Running

variable {args : List String} {o : ConvertOptions} {fs after : Files} {ignored : List String}

/-- A conversion writes what it renders from its input. -/
theorem write_eq_ok_iff :
    o.write fs = .ok (after, ignored) ↔
      ∃ text i, fs.readText o.input = .ok text ∧ ConfFile.parse text = .ok i ∧
        i.settings.rpc.fitsToml = true ∧ ignored = i.ignored ∧
          fs.write o.output (Utf8.ofString
            (render o.input i.settings.tomlDocument.text i.ignored)) = .ok after := by
  unfold write convert
  constructor
  · intro h
    split at h
    · cases h
    · rename_i rendered keys hconvert
      split at hconvert
      · cases hconvert
      · rename_i text htext
        split at hconvert
        · cases hconvert
        · rename_i i hparse
          split at hconvert
          · cases hconvert
          · rename_i body htoml
            cases hconvert
            obtain ⟨hfits, rfl⟩ := Settings.toml_eq_ok_iff.mp htoml
            split at h
            · cases h
            · rename_i hwrite
              cases h
              exact ⟨text, i, htext, hparse, hfits, rfl, hwrite⟩
  · rintro ⟨text, i, htext, hparse, hfits, rfl, hwrite⟩
    have htoml := Settings.toml_eq_ok_iff.mpr ⟨hfits, rfl⟩
    simp only [htext, hparse, htoml, hwrite]

/-- A conversion that is done ends well, and its files are those that are left behind. -/
theorem run_of_write (hread : read args = .ok o) (h : o.write fs = .ok (after, ignored)) :
    (run args fs).exit = 0 ∧ (run args fs).files = after := by
  unfold run
  rw [hread]
  dsimp only
  rw [h]
  exact ⟨rfl, rfl⟩

/-- Only a conversion that is done ends well. -/
theorem exists_write_of_exit (hread : read args = .ok o) (hexit : (run args fs).exit = 0) :
    ∃ ignored, o.write fs = .ok ((run args fs).files, ignored) := by
  cases h : o.write fs with
  | error f =>
    unfold run at hexit
    rw [hread] at hexit
    dsimp only at hexit
    rw [h] at hexit
    cases hexit
  | ok result =>
    obtain ⟨after, ignored⟩ := result
    rw [(run_of_write hread h).2]
    exact ⟨ignored, rfl⟩

/-- The file that a conversion leaves behind is loaded as what it rendered. -/
theorem load_of_write (hpath : Path.extension o.output = "toml")
    (h : o.write fs = .ok (after, ignored)) :
    ∃ text i, fs.readText o.input = .ok text ∧ ConfFile.parse text = .ok i ∧
      i.settings.rpc.fitsToml = true ∧
        Settings.load after o.output = Settings.ofText .toml o.output
          (render o.input i.settings.tomlDocument.text i.ignored) := by
  have hformat : Settings.Format.ofExtension? (Path.extension o.output) = some .toml := by
    rw [hpath]
    rfl
  obtain ⟨text, i, htext, hparse, hfits, -, hwrite⟩ := write_eq_ok_iff.mp h
  exact ⟨text, i, htext, hparse, hfits, Settings.load_write hformat hwrite⟩

/-- **A converted file gives back the settings of its input exactly if its path and the keys that are
not known may stand in comments**; otherwise the file is malformed, although the conversion ended
well. The path is one without a line feed. -/
theorem load_converted (hread : read args = .ok o) (hexit : (run args fs).exit = 0)
    (hpath : Path.extension o.output = "toml") (hnewline : '\n' ∉ o.input.toList) :
    ∃ text i, fs.readText o.input = .ok text ∧ ConfFile.parse text = .ok i ∧
      Settings.load (run args fs).files o.output =
        if Toml.IsComment o.input.toList ∧ ∀ k ∈ i.ignored, Toml.IsComment k.toList then
          .ok i.settings
        else .error (.malformed o.output) := by
  obtain ⟨ignored, hwrite⟩ := exists_write_of_exit hread hexit
  obtain ⟨text, i, htext, hparse, hfits, hload⟩ := load_of_write hpath hwrite
  refine ⟨text, i, htext, hparse, ?_⟩
  have hkeys : ∀ k ∈ i.ignored, '\n' ∉ k.toList := fun k hk =>
    ConfFile.newline_notMem_of_ignored hparse hk
  rw [hload, Settings.ofText]
  by_cases hinput : Toml.IsComment o.input.toList
  · by_cases hcomments : ∀ k ∈ i.ignored, Toml.IsComment k.toList
    · rw [ofToml?_render hfits hinput hcomments, if_pos ⟨hinput, hcomments⟩]
    · have hkey : ∃ k ∈ i.ignored, ¬Toml.IsComment k.toList := by
        push Not at hcomments
        exact hcomments
      rw [ofToml?_render_of_key hfits hinput hkeys hkey, if_neg fun h => hcomments h.2]
  · rw [ofToml?_render_of_input hnewline hinput, if_neg fun h => hinput h.1]

/-- **A file converted from a path that opens a table is loaded without the directory of its input**,
which then has its default. -/
theorem load_of_header (hread : read args = .ok o) (hexit : (run args fs).exit = 0)
    (hpath : Path.extension o.output = "toml") {first name : String}
    (hinput : o.input = first ++ "\n[" ++ name ++ "]") (hfirst : Toml.IsComment first.toList)
    (hname : Toml.IsBare name) (hunknown : name ∉ Settings.fields) :
    ∃ text i, fs.readText o.input = .ok text ∧ ConfFile.parse text = .ok i ∧
      ((∀ k ∈ i.ignored, Toml.IsComment k.toList) →
        Settings.load (run args fs).files o.output =
          .ok { i.settings with dataDir := Settings.default.dataDir }) := by
  obtain ⟨ignored, hwrite⟩ := exists_write_of_exit hread hexit
  obtain ⟨text, i, htext, hparse, hfits, hload⟩ := load_of_write hpath hwrite
  refine ⟨text, i, htext, hparse, fun hkeys => ?_⟩
  rw [hload, hinput, Settings.ofText,
    ofToml?_render_of_header hfits hfirst hname hunknown hkeys]

end Running

/-! ### One input -/

/-- A conf file with some text, and no other file. -/
def inputFiles (text : String) : Files := ⟨[⟨["clam.conf".toList], Utf8.ofString text⟩]⟩

/-- The text of the conf file. -/
theorem readText_inputFiles (text : String) : (inputFiles text).readText "clam.conf" = .ok text := by
  have hwrite : Files.empty.write "clam.conf" (Utf8.ofString text) = .ok (inputFiles text) := rfl
  exact Files.readText_write hwrite

/-- The converter without an output in its arguments. -/
theorem read_input : read ["clam.conf"] = .ok ⟨"clam.conf", "config.toml", false⟩ := rfl

/-- Every conf file that is read is converted, if the numbers in it can be written. -/
theorem run_inputFiles {text : String} {s : Settings} {keys : List String}
    (hparse : ConfFile.parse text = .ok ⟨s, keys⟩) (hfits : s.rpc.fitsToml = true) :
    (run ["clam.conf"] (inputFiles text)).exit = 0 ∧
      Settings.load (run ["clam.conf"] (inputFiles text)).files "config.toml" =
        Settings.ofText .toml "config.toml" (render "clam.conf" s.tomlDocument.text keys) := by
  have houtput : ∀ content, (inputFiles text).write "config.toml" content =
      .ok ((inputFiles text).putAt ["config.toml".toList] content) := fun _ => rfl
  have hwrite : write ⟨"clam.conf", "config.toml", false⟩ (inputFiles text) =
      .ok (_, keys) :=
    write_eq_ok_iff.mpr ⟨text, _, readText_inputFiles text, hparse, hfits, rfl, houtput _⟩
  obtain ⟨hexit, hfiles⟩ := run_of_write read_input hwrite
  rw [hfiles]
  have hformat : Settings.Format.ofExtension? (Path.extension "config.toml") = some .toml := rfl
  exact ⟨hexit, Settings.load_write hformat (houtput _)⟩

/-- A conf file with a key that is not known is converted and gives its settings. -/
theorem load_converted_server :
    read ["clam.conf"] = .ok ⟨"clam.conf", "config.toml", false⟩ ∧
      (run ["clam.conf"] (inputFiles "server=1\n")).exit = 0 ∧
      Path.extension "config.toml" = "toml" ∧ '\n' ∉ "clam.conf".toList ∧
      ∃ text i, (inputFiles "server=1\n").readText "clam.conf" = .ok text ∧
        ConfFile.parse text = .ok i ∧
          Settings.load (run ["clam.conf"] (inputFiles "server=1\n")).files "config.toml" =
            if Toml.IsComment "clam.conf".toList ∧ ∀ k ∈ i.ignored, Toml.IsComment k.toList then
              .ok i.settings
            else .error (.malformed "config.toml") := by
  have hparse : ConfFile.parse "server=1\n" = .ok ⟨.default, ["server"]⟩ := rfl
  have hexit := (run_inputFiles hparse rfl).1
  exact ⟨read_input, hexit, rfl, by decide, load_converted read_input hexit rfl (by decide)⟩

/-- A conf file with a control in a key is converted, but what is written is malformed. -/
theorem load_control_key :
    (inputFiles "\x01=1\n").readText "clam.conf" = .ok "\x01=1\n" ∧
      ConfFile.parse "\x01=1\n" = .ok ⟨.default, ["\x01"]⟩ ∧
      (run ["clam.conf"] (inputFiles "\x01=1\n")).exit = 0 ∧
        Settings.load (run ["clam.conf"] (inputFiles "\x01=1\n")).files "config.toml" =
          .error (.malformed "config.toml") := by
  have hparse : ConfFile.parse "\x01=1\n" = .ok ⟨.default, ["\x01"]⟩ := rfl
  have hfits : Settings.default.rpc.fitsToml = true := rfl
  obtain ⟨hexit, hload⟩ := run_inputFiles hparse hfits
  have hread : Settings.ofToml? (render "clam.conf" Settings.default.tomlDocument.text ["\x01"]) =
      none :=
    ofToml?_render_of_key hfits (by decide) (by decide) ⟨"\x01", List.mem_singleton_self _, by decide⟩
  refine ⟨readText_inputFiles _, hparse, hexit, ?_⟩
  rw [hload, Settings.ofText, hread]

end ConvertOptions

end Cli

end RpcDaemon
