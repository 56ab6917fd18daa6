import RpcDaemon.Proofs.Http.Framing

/-!
# Replies read back

A client reads every reply off the front of a stream as it was sent, and what follows the reply is
left unread. Main statements: `read?_render` and `readMany?_render`.
-/

namespace RpcDaemon

namespace Http

/-! ## Dates -/

/-- The name of a day of the week is a word. -/
theorem weekday_word : ∀ i, i < 7 → (weekdays.getD i "").toList ≠ [] ∧
    Chars.Unbroken (weekdays.getD i "").toList := by
  decide

/-- No blank stands in the name of a month. -/
theorem month_word (i : Nat) : Chars.Unbroken (months.getD i "").toList := by
  by_cases hi : i < 12
  · exact (by decide : ∀ i, i < 12 → Chars.Unbroken (months.getD i "").toList) i hi
  · have hnone : months.getD i "" = "" := by
      rw [List.getD_eq_getElem?_getD, List.getElem?_eq_none (by simp [months]; omega)]
      rfl
    rw [hnone]
    intro c hc
    cases hc

/-- No blank stands in a padded number. -/
theorem padded_word (width n : Nat) : Chars.Unbroken (Numeral.padded width n) := by
  intro c hc
  unfold Numeral.padded at hc
  rcases List.mem_append.mp hc with h | h
  · rw [List.eq_of_mem_replicate h]
    rfl
  · exact Numeral.isBlank_of_mem_ofNat h

/-- A date stands within a line. -/
theorem dateChars_inLine (secs : Nat) : InLine (dateChars secs) := by
  -- Every part is a word, a number or a mark between them.
  have hday := inLine_of_unbroken (weekday_word (secs / daySeconds % 7) (Nat.mod_lt _ (by decide))).2
  have hmonth := fun i => inLine_of_unbroken (month_word i)
  have hpadded := fun n => inLine_of_unbroken (padded_word 2 n)
  have hyear := fun n => inLine_of_unbroken fun _ h => Numeral.isBlank_of_mem_ofNat (n := n) h
  have hcomma : InLine [',', ' '] := by decide
  have hspace : InLine [' '] := by decide
  have hcolon : InLine [':'] := by decide
  have hzone : InLine " GMT".toList := by decide
  unfold dateChars
  exact ((((((((((((hday.append hcomma).append (hpadded _)).append hspace).append
    (hmonth _)).append hspace).append (hyear _)).append hspace).append (hpadded _)).append
    hcolon).append (hpadded _)).append hcolon).append (hpadded _)).append hzone

/-- A date neither starts nor ends with a blank. -/
theorem trim_dateChars (secs : Nat) : Chars.trim (dateChars secs) = dateChars secs := by
  obtain ⟨hne, hday⟩ := weekday_word (secs / daySeconds % 7) (Nat.mod_lt _ (by decide))
  refine Chars.trim_of_ends ?_ ?_
  · intro c hc
    obtain ⟨d, ds, hcons⟩ := List.exists_cons_of_ne_nil hne
    unfold dateChars at hc
    simp only [hcons, List.cons_append, List.head?_cons, Option.some.injEq] at hc
    exact hday c (hcons ▸ hc ▸ List.mem_cons_self)
  · -- The name of the zone stands at the end.
    intro c hc
    unfold dateChars at hc
    rw [List.getLast?_append] at hc
    have hT : 'T' = c := Option.some.inj hc
    rw [← hT]
    rfl

/-! ## Lines -/

/-- A line of a clean header is left as it is by dropping blanks at its end, unless there is no
value. -/
theorem Clean.trimEndWhile_headerChars {h : String × String} (hc : Clean h)
    (hv : h.2.toList ≠ []) : Chars.trimEndWhile isBlank (headerChars h) = headerChars h := by
  refine Chars.trimEndWhile_of_last fun c hlast => ?_
  -- The last character of the line is that of the value.
  have hvalue : h.2.toList.getLast? = some c := by
    unfold headerChars at hlast
    rw [show h.1.toList ++ ':' :: ' ' :: h.2.toList = h.1.toList ++ [':', ' '] ++ h.2.toList by simp,
      List.getLast?_append, List.getLast?_eq_some_getLast hv] at hlast
    rw [List.getLast?_eq_some_getLast hv]
    exact hlast
  rw [← hc.value_trim] at hvalue
  exact Chars.last_trimEndWhile hvalue

/-- Every header takes at least one byte. -/
theorem length_le_encode_headersChars (headers : List (String × String)) :
    headers.length ≤ (Utf8.encode (headersChars headers)).length := by
  induction headers with
  | nil => exact Nat.zero_le _
  | cons h headers ih =>
    have hsplit := encode_headersChars_cons h headers []
    rw [List.append_nil, encode_crlf] at hsplit
    rw [hsplit]
    simp only [List.length_append, List.length_cons, List.length_nil]
    omega

namespace Received

/-- A line of any length is cut off what starts with it. -/
theorem cut_append {line : List Char} (h : InLine line) (rest : List UInt8) :
    cut (Utf8.encode (line ++ Reply.crlf) ++ rest) = (line ++ Reply.crlf, rest) := by
  have hcut : cutLine (Utf8.encode (line ++ Reply.crlf) ++ rest).length
      (Utf8.encode (line ++ Reply.crlf) ++ rest) = (Utf8.encode (line ++ Reply.crlf), rest) := by
    rw [encode_crlf, cutLine_of_lineFeed (lineFeed_notMem_encode h) (by simp)]
    rw [← List.append_nil (Utf8.encode (line ++ Reply.crlf)), encode_crlf]
  unfold cut
  rw [hcut]
  dsimp only
  rw [Utf8.decodeLossy_encode]

/-- A header line is read as its header, before those that follow. -/
theorem readHeaders_cons {h : String × String} (hc : Clean h) (hv : h.2.toList ≠ []) (fuel : Nat)
    (s : List UInt8) :
    readHeaders (fuel + 1) (Utf8.encode (headerChars h ++ Reply.crlf) ++ s) =
      (h :: (readHeaders fuel s).1, (readHeaders fuel s).2) := by
  have hne : (headerChars h).isEmpty = false := by
    unfold headerChars
    simp
  have hsplit : Chars.splitFirst? ':' (headerChars h) = some (h.1.toList, ' ' :: h.2.toList) :=
    Chars.splitFirst?_append hc.colon _
  rw [readHeaders, cut_append hc.inLine]
  dsimp only
  rw [Chars.trimEndWhile_append _ (by decide), hc.trimEndWhile_headerChars hv,
    if_neg (by simp [hne]), hsplit]
  dsimp only
  rw [hc.name_trim, Chars.trim_cons_blank (by decide), hc.value_trim, String.ofList_toList,
    String.ofList_toList]

/-- **Headers are read back** by a client that reads enough lines. -/
theorem readHeaders_headersChars {headers : List (String × String)}
    (hclean : ∀ h ∈ headers, Clean h ∧ h.2.toList ≠ []) {fuel : Nat}
    (hfuel : headers.length < fuel) (rest : List UInt8) :
    readHeaders fuel (Utf8.encode (headersChars headers) ++ rest) = (headers, rest) := by
  induction headers generalizing fuel with
  | nil =>
    obtain ⟨fuel, rfl⟩ : ∃ k, fuel = k + 1 := ⟨fuel - 1, by simp at hfuel; omega⟩
    rw [readHeaders, show headersChars [] = [] ++ Reply.crlf from rfl,
      cut_append (by decide)]
    rfl
  | cons h headers ih =>
    obtain ⟨hc, hv⟩ := hclean h List.mem_cons_self
    rw [List.length_cons] at hfuel
    obtain ⟨fuel, rfl⟩ : ∃ k, fuel = k + 1 := ⟨fuel - 1, by omega⟩
    rw [encode_headersChars_cons, readHeaders_cons hc hv,
      ih (fun k hk => hclean k (List.mem_cons_of_mem h hk)) (by omega)]

/-- A header of another name does not count for the length. -/
theorem bodyLength_cons_of_ne {name : String} (h : sameIgnoringCase name "content-length" = false)
    (value : String) (headers : List (String × String)) :
    bodyLength ((name, value) :: headers) = bodyLength headers := by
  unfold bodyLength
  rw [List.find?_cons_of_neg (by simp [h])]

/-- The length is read off its header. -/
theorem bodyLength_cons (n : Nat) (headers : List (String × String)) :
    bodyLength (("Content-Length", decimal n) :: headers) = n := by
  unfold bodyLength
  rw [List.find?_cons_of_pos (by exact (by decide :
    sameIgnoringCase "Content-Length" "content-length" = true))]
  dsimp only
  rw [decimal, String.toList_ofList, Numeral.nat?_ofNat]
  rfl

end Received

/-! ## Replies -/

/-- No line ends within a registered phrase. -/
theorem reasons_inLine : ∀ p ∈ reasons, InLine p.2.toList := by
  decide +kernel

/-- No line ends within the phrase of a code. -/
theorem reason_inLine (status : Nat) : InLine (reason status).toList := by
  unfold reason
  cases hr : reasons.lookup status with
  | none =>
    intro c hc
    cases hc
  | some phrase =>
    obtain ⟨before, after, heq, -⟩ := List.lookup_eq_some_iff.mp hr
    exact reasons_inLine (status, phrase) (heq ▸ List.mem_append_right _ List.mem_cons_self)

namespace Reply

/-- The version of HTTP that a reply gives. -/
def version : Reply → List Char
  | .json _ _ _ => "HTTP/1.1".toList
  | .challenge => "HTTP/1.0".toList

/-- The phrase that goes with the status. -/
def phrase : Reply → List Char
  | .json status _ _ => (reason status).toList
  | .challenge => "Authorization Required".toList

/-- The characters of the status line. -/
def statusChars (r : Reply) : List Char :=
  r.version ++ ' ' :: (Numeral.ofNat r.status ++ ' ' :: r.phrase)

/-- The headers of a reply written at `secs`. -/
def headers (secs : Nat) : Reply → List (String × String)
  | .json _ body keepAlive =>
      [("Date", String.ofList (dateChars secs)),
        ("Connection", if keepAlive then "keep-alive" else "close"),
        ("Content-Length", decimal (Utf8.ofString body).length),
        ("Content-Type", "application/json"),
        ("Server", serverName)]
  | .challenge =>
      [("Date", String.ofList (dateChars secs)),
        ("Server", serverName),
        ("WWW-Authenticate", "Basic realm=\"jsonrpc\""),
        ("Content-Type", "text/html"),
        ("Content-Length", decimal (Utf8.ofString challengePage).length)]

/-- The reply written at `secs`, as a client reads it. -/
def received (secs : Nat) (r : Reply) : Received :=
  ⟨r.status, r.headers secs, Utf8.ofString r.body⟩

/-- The head of a reply is its status line and its headers. -/
theorem headLines_eq (secs : Nat) (r : Reply) :
    r.headLines secs = r.statusChars :: (r.headers secs).map headerChars := by
  cases r with
  | json status body keepAlive =>
    unfold headLines statusChars version phrase headers headerChars decimal Reply.status
    cases keepAlive <;> simp
  | challenge =>
    unfold headLines statusChars version phrase headers headerChars decimal Reply.status
    simp
    rfl

/-- The version is a word. -/
theorem version_word (r : Reply) : r.version ≠ [] ∧ Chars.Unbroken r.version := by
  cases r with
  | json status body keepAlive =>
    show "HTTP/1.1".toList ≠ [] ∧ Chars.Unbroken "HTTP/1.1".toList
    decide
  | challenge =>
    show "HTTP/1.0".toList ≠ [] ∧ Chars.Unbroken "HTTP/1.0".toList
    decide

/-- The phrase stands within a line. -/
theorem phrase_inLine (r : Reply) : InLine r.phrase := by
  cases r with
  | json status body keepAlive => exact reason_inLine status
  | challenge =>
    show InLine "Authorization Required".toList
    decide

/-- The status line of a reply stands within a line. -/
theorem statusChars_inLine (r : Reply) : InLine r.statusChars :=
  (inLine_of_unbroken r.version_word.2).append
    (((inLine_of_unbroken fun _ h => Numeral.isBlank_of_mem_ofNat h).append
      (r.phrase_inLine.cons (by decide))).cons (by decide))

/-- The second word of the status line is the status. -/
theorem words_statusChars (r : Reply) :
    ∃ more, Chars.words (r.statusChars ++ crlf) = r.version :: Numeral.ofNat r.status :: more := by
  refine ⟨Chars.words (r.phrase ++ crlf), ?_⟩
  unfold statusChars
  rw [List.append_assoc, List.cons_append, List.append_assoc, List.cons_append,
    Chars.words_append_blank r.version_word.1 r.version_word.2 (by decide),
    Chars.words_append_blank (Numeral.ofNat_ne_nil _) (fun _ h => Numeral.isBlank_of_mem_ofNat h)
      (by decide)]

/-- The headers of a reply are read as they were written. -/
theorem clean_headers (secs : Nat) (r : Reply) :
    ∀ h ∈ r.headers secs, Clean h ∧ h.2.toList ≠ [] := by
  have hdate : Clean ("Date", String.ofList (dateChars secs)) ∧
      (String.ofList (dateChars secs)).toList ≠ [] := by
    rw [String.toList_ofList]
    refine ⟨clean_of_word (by decide) ?_ ?_, List.append_ne_nil_of_right_ne_nil _ (by decide)⟩
    · rw [String.toList_ofList]
      exact dateChars_inLine secs
    · rw [String.toList_ofList]
      exact trim_dateChars secs
  intro h hm
  cases r with
  | json status body keepAlive =>
    simp only [headers, List.mem_cons, List.not_mem_nil, or_false] at hm
    rcases hm with rfl | rfl | rfl | rfl | rfl
    · exact hdate
    · cases keepAlive
      · exact ⟨clean_of_word (by decide) (by decide) (by decide), by decide⟩
      · exact ⟨clean_of_word (by decide) (by decide) (by decide), by decide⟩
    · exact clean_decimal (by decide) _
    · exact ⟨clean_of_word (by decide) (by decide) (by decide), by decide⟩
    · exact ⟨clean_of_word (by decide) (by decide) (by decide), by decide⟩
  | challenge =>
    simp only [headers, List.mem_cons, List.not_mem_nil, or_false] at hm
    rcases hm with rfl | rfl | rfl | rfl | rfl
    · exact hdate
    · exact ⟨clean_of_word (by decide) (by decide) (by decide), by decide⟩
    · exact ⟨clean_of_word (by decide) (by decide) (by decide), by decide⟩
    · exact ⟨clean_of_word (by decide) (by decide) (by decide), by decide⟩
    · exact clean_decimal (by decide) _

/-- The length that the headers give is that of the body. -/
theorem bodyLength_headers (secs : Nat) (r : Reply) :
    Received.bodyLength (r.headers secs) = (Utf8.ofString r.body).length := by
  cases r with
  | json status body keepAlive =>
    unfold headers
    rw [Received.bodyLength_cons_of_ne (by decide), Received.bodyLength_cons_of_ne (by decide),
      Received.bodyLength_cons]
    rfl
  | challenge =>
    unfold headers
    rw [Received.bodyLength_cons_of_ne (by decide), Received.bodyLength_cons_of_ne (by decide),
      Received.bodyLength_cons_of_ne (by decide), Received.bodyLength_cons_of_ne (by decide),
      Received.bodyLength_cons]
    rfl

/-- The bytes of a reply are those of its status line, its headers and its body. -/
theorem render_append (secs : Nat) (r : Reply) (rest : List UInt8) :
    r.render secs ++ rest = Utf8.encode (r.statusChars ++ crlf) ++
      (Utf8.encode (headersChars (r.headers secs)) ++ (Utf8.ofString r.body ++ rest)) := by
  have hchars : r.chars secs =
      r.statusChars ++ crlf ++ (headersChars (r.headers secs) ++ r.body.toList) := by
    unfold chars headersChars
    rw [headLines_eq, List.flatMap_cons, List.flatMap_map]
    simp only [List.append_assoc]
  unfold render Utf8.ofString
  rw [hchars, Utf8.encode_append _ (_ ++ _), Utf8.encode_append (headersChars _),
    List.append_assoc, List.append_assoc]

/-- **A reply is read back**, and what follows it is left unread. -/
theorem read?_render (secs : Nat) {r : Reply} (hstatus : r.status < 65536) (rest : List UInt8) :
    Received.read? (r.render secs ++ rest) = some (r.received secs, rest) := by
  obtain ⟨more, hwords⟩ := words_statusChars r
  -- Every header takes a byte, so there is work enough to read all of them.
  have hfuel : (r.headers secs).length < (Utf8.encode (headersChars (r.headers secs)) ++
      (Utf8.ofString r.body ++ rest)).length + 1 := by
    rw [List.length_append]
    have := length_le_encode_headersChars (r.headers secs)
    omega
  unfold Received.read?
  rw [render_append, Received.cut_append (statusChars_inLine r)]
  dsimp only
  rw [hwords]
  dsimp only
  rw [Numeral.unsigned?_of_nat? (Numeral.nat?_ofNat _) hstatus]
  dsimp only
  rw [Received.readHeaders_headersChars (clean_headers secs r) hfuel]
  dsimp only
  rw [bodyLength_headers, if_neg (by simp), List.take_left, List.drop_left]
  rfl

/-- A client finds in the headers whether the connection stays open. -/
theorem lookup_connection (secs status : Nat) (body : String) (keepAlive : Bool) :
    (headers secs (.json status body keepAlive)).lookup "Connection" =
      some (if keepAlive then "keep-alive" else "close") := by
  have hdate : ("Connection" == "Date") = false := by decide
  unfold headers
  rw [List.lookup_cons, hdate]
  exact List.lookup_cons_self

/-- The bodies that are read are those of the replies, whenever these are written. -/
theorem bodies_received (replies : List Reply) (clock : Nat → Nat) :
    (replies.zipIdx.map fun p => p.1.received (clock p.2)).map Received.body =
      replies.map fun r => Utf8.ofString r.body := by
  have hbody : (Received.body ∘ fun p : Reply × Nat => p.1.received (clock p.2)) =
      (fun r : Reply => Utf8.ofString r.body) ∘ Prod.fst := rfl
  rw [List.map_map, hbody, ← List.map_map, List.zipIdx_map_fst]

/-- **Replies written one after the other are read back**, each with the moment it was written at. -/
theorem readMany?_render (rs : List (Nat × Reply)) (h : ∀ p ∈ rs, p.2.status < 65536)
    (rest : List UInt8) :
    Received.readMany? rs.length ((rs.map fun p => p.2.render p.1).flatten ++ rest) =
      some (rs.map fun p => p.2.received p.1, rest) := by
  induction rs with
  | nil => rfl
  | cons p rs ih =>
    rw [List.length_cons, Received.readMany?, List.map_cons, List.flatten_cons, List.append_assoc,
      read?_render p.1 (h p List.mem_cons_self)]
    dsimp only
    rw [ih fun q hq => h q (List.mem_cons_of_mem p hq)]
    rfl

end Reply

end Http

end RpcDaemon
