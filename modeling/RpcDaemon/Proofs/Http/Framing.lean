import RpcDaemon.Http.Client
import RpcDaemon.Proofs.Text.Blank
import RpcDaemon.Proofs.Text.Numeral
import RpcDaemon.Proofs.Text.Utf8

/-!
# Requests read back

A request that a client composes from clean headers within the limits is read back off the front of
a stream, and what follows it is left unread. Main statement: `readRequest_render`.
-/

namespace RpcDaemon

namespace Http

/-! ## Lines -/

/-- A line is cut at its line feed if that comes within the limit. -/
theorem cutLine_of_lineFeed {limit : Nat} {line : List UInt8} (h : lineFeed ∉ line)
    (hl : line.length < limit) (rest : List UInt8) :
    cutLine limit (line ++ lineFeed :: rest) = (line ++ [lineFeed], rest) := by
  induction line generalizing limit with
  | nil =>
    obtain ⟨limit, rfl⟩ : ∃ k, limit = k + 1 := ⟨limit - 1, by simp at hl; omega⟩
    rw [List.nil_append, cutLine, if_pos rfl]
    rfl
  | cons b line ih =>
    rw [List.length_cons] at hl
    obtain ⟨limit, rfl⟩ : ∃ k, limit = k + 1 := ⟨limit - 1, by omega⟩
    have hb : b ≠ lineFeed := fun heq => h (heq ▸ List.mem_cons_self)
    rw [List.cons_append, cutLine, if_neg hb, ih (fun hm => h (List.mem_cons_of_mem b hm)) (by omega)]
    rfl

/-- Characters that may stand within a line. -/
def InLine (line : List Char) : Prop := ∀ c ∈ line, c ≠ '\r' ∧ c ≠ '\n'

instance (line : List Char) : Decidable (InLine line) :=
  List.decidableBAll (fun c => c ≠ '\r' ∧ c ≠ '\n') line

theorem InLine.append {a b : List Char} (ha : InLine a) (hb : InLine b) : InLine (a ++ b) := by
  intro c hc
  rcases List.mem_append.mp hc with h | h
  · exact ha c h
  · exact hb c h

theorem InLine.cons {c : Char} {cs : List Char} (hc : c ≠ '\r' ∧ c ≠ '\n') (hcs : InLine cs) :
    InLine (c :: cs) := by
  intro d hd
  rcases List.mem_cons.mp hd with rfl | hd
  · exact hc
  · exact hcs d hd

/-- No character that is not blank ends a line. -/
theorem inLine_of_unbroken {cs : List Char} (h : Chars.Unbroken cs) : InLine cs := by
  intro c hc
  constructor
  · rintro rfl
    exact absurd (h _ hc) (by decide)
  · rintro rfl
    exact absurd (h _ hc) (by decide)

/-- The bytes of a line with its end are those of the line, a carriage return and a line feed. -/
theorem encode_crlf (line : List Char) (rest : List UInt8) :
    Utf8.encode (line ++ Reply.crlf) ++ rest = Utf8.encode line ++ [13] ++ lineFeed :: rest := by
  rw [Utf8.encode_append, show Utf8.encode Reply.crlf = [13] ++ [lineFeed] from rfl,
    ← List.append_assoc, List.append_assoc]
  rfl

/-- No line feed stands in the bytes of a line. -/
theorem lineFeed_notMem_encode {line : List Char} (h : InLine line) :
    lineFeed ∉ Utf8.encode line ++ [13] := by
  intro hm
  rcases List.mem_append.mp hm with hm | hm
  · have hc := Utf8.mem_of_mem_encode (by decide) hm
    exact (h _ hc).2 rfl
  · exact absurd hm (by decide)

/-- The text of a line is what stands before its end. -/
theorem lineText_encode {line : List Char} (h : InLine line) :
    lineText (Utf8.encode (line ++ Reply.crlf)) = line := by
  unfold lineText
  -- The end of the line is dropped, and no character before it.
  rw [Utf8.decodeLossy_encode, Chars.trimEndWhile_append line (by decide)]
  refine Chars.trimEndWhile_of_forall fun c hc => ?_
  rw [Bool.or_eq_false_iff, beq_eq_false_iff_ne, beq_eq_false_iff_ne]
  exact h c hc

/-- **A line is read back.** -/
theorem readLine_append {line : List Char} (h : InLine line)
    (hs : (Utf8.encode line).length + 2 ≤ maxLine) (rest : List UInt8) :
    readLine (Utf8.encode (line ++ Reply.crlf) ++ rest) = .ok (line, rest) := by
  have hcut : cutLine maxLine (Utf8.encode (line ++ Reply.crlf) ++ rest) =
      (Utf8.encode (line ++ Reply.crlf), rest) := by
    rw [encode_crlf, cutLine_of_lineFeed (lineFeed_notMem_encode h) (by simp; omega)]
    rw [← List.append_nil (Utf8.encode (line ++ Reply.crlf)), encode_crlf]
  have hlast : (Utf8.encode (line ++ Reply.crlf)).getLast? = some lineFeed := by
    rw [← List.append_nil (Utf8.encode (line ++ Reply.crlf)), encode_crlf, List.getLast?_concat]
  unfold readLine
  split
  · rename_i heq
    rw [encode_crlf] at heq
    exact absurd heq (by simp)
  · rw [hcut]
    dsimp only
    rw [if_neg fun hn => hn.1 hlast, lineText_encode h]

/-! ## The request line -/

/-- The characters of the request line. -/
def Message.requestChars (m : Message) : List Char :=
  m.method.toList ++ ' ' :: m.uri.toList ++ " HTTP/1.".toList ++ Numeral.ofNat m.minorVersion

/-- The version is read back. -/
theorem minorVersion_append {n : Nat} (h : n < 4294967296) :
    minorVersion ("HTTP/1.".toList ++ Numeral.ofNat n) = n := by
  unfold minorVersion
  rw [Chars.after?_append]
  dsimp only
  rw [Numeral.ofNat, Digit.scan_map, Numeral.value_digits, if_pos h]

/-- The request line is read back. -/
theorem requestLine?_requestChars {m : Message} (hm : m.method = "GET" ∨ m.method = "POST")
    (hu : m.uri.toList.head? = some '/') (hb : Chars.Unbroken m.uri.toList)
    (hv : m.minorVersion < 4294967296) :
    requestLine? m.requestChars = some (m.method, m.uri, m.minorVersion) := by
  have hmethod : m.method.toList ≠ [] ∧ Chars.Unbroken m.method.toList := by
    rcases hm with h | h <;> rw [h] <;> decide
  have huri : m.uri.toList ≠ [] := by
    intro hnil
    rw [hnil] at hu
    cases hu
  have hversion : Chars.Unbroken ("HTTP/1.".toList ++ Numeral.ofNat m.minorVersion) := by
    intro c hc
    rcases List.mem_append.mp hc with h | h
    · exact (by decide : Chars.Unbroken "HTTP/1.".toList) c h
    · exact Numeral.isBlank_of_mem_ofNat h
  have hwords : Chars.words m.requestChars =
      [m.method.toList, m.uri.toList, "HTTP/1.".toList ++ Numeral.ofNat m.minorVersion] := by
    have hsplit : m.requestChars = m.method.toList ++ ' ' :: (m.uri.toList ++
        ' ' :: ("HTTP/1.".toList ++ Numeral.ofNat m.minorVersion)) := by
      show m.method.toList ++ ' ' :: m.uri.toList ++ (' ' :: "HTTP/1.".toList) ++ _ = _
      simp only [List.append_assoc, List.cons_append]
    -- No blank stands within the three words, so the two blanks divide them.
    rw [hsplit, Chars.words_append_blank hmethod.1 hmethod.2 rfl,
      Chars.words_append_blank huri hb rfl, Chars.words_of_unbroken _ hversion]
    exact List.append_ne_nil_of_left_ne_nil (by decide) _
  unfold requestLine?
  rw [hwords]
  dsimp only
  rw [if_pos, if_pos hu, minorVersion_append hv, String.ofList_toList, String.ofList_toList]
  rcases hm with h | h
  · exact Or.inl (congrArg String.toList h)
  · exact Or.inr (congrArg String.toList h)

/-! ## Headers -/

/-- The characters of a header line. -/
def headerChars (h : String × String) : List Char :=
  h.1.toList ++ ':' :: ' ' :: h.2.toList

/-- A header that is read as it was written, up to the case of its name. -/
structure Clean (h : String × String) : Prop where
  /-- The name ends at the first colon. -/
  colon : ':' ∉ h.1.toList
  /-- The name stands within a line. -/
  name_inLine : InLine h.1.toList
  /-- The value stands within a line. -/
  value_inLine : InLine h.2.toList
  /-- No blank stands at either end of the name. -/
  name_trim : Chars.trim h.1.toList = h.1.toList
  /-- No blank stands at either end of the value. -/
  value_trim : Chars.trim h.2.toList = h.2.toList

/-- The line of a clean header is a line. -/
theorem Clean.inLine {h : String × String} (hc : Clean h) : InLine (headerChars h) :=
  hc.name_inLine.append ((hc.value_inLine.cons (by decide)).cons (by decide))

/-- A name that is a word without colon and a trimmed value make a clean header. -/
theorem clean_of_word {name value : String}
    (hname : ':' ∉ name.toList ∧ Chars.Unbroken name.toList)
    (hvalue : InLine value.toList) (htrim : Chars.trim value.toList = value.toList) :
    Clean (name, value) where
  colon := hname.1
  name_inLine := inLine_of_unbroken hname.2
  value_inLine := hvalue
  name_trim := Chars.trim_of_unbroken hname.2
  value_trim := htrim

/-- A header whose value is a number is clean. -/
theorem clean_decimal {name : String}
    (hname : ':' ∉ name.toList ∧ Chars.Unbroken name.toList) (n : Nat) :
    Clean (name, decimal n) ∧ (decimal n).toList ≠ [] := by
  have hvalue : Chars.Unbroken (decimal n).toList := by
    intro c hc
    rw [decimal, String.toList_ofList] at hc
    exact Numeral.isBlank_of_mem_ofNat hc
  refine ⟨clean_of_word hname (inLine_of_unbroken hvalue) (Chars.trim_of_unbroken hvalue), ?_⟩
  rw [decimal, String.toList_ofList]
  exact Numeral.ofNat_ne_nil n

/-- A header line is not blank. -/
theorem trim_headerChars_isEmpty (h : String × String) :
    (Chars.trim (headerChars h)).isEmpty = false := by
  have hmem : ':' ∈ Chars.trim (headerChars h) :=
    Chars.mem_trim (List.mem_append_right _ List.mem_cons_self) (by decide)
  cases hl : Chars.trim (headerChars h) with
  | nil =>
    rw [hl] at hmem
    cases hmem
  | cons c cs => rfl

/-- A header with a new name is put after the others. -/
theorem putHeader_of_notMem {name : String} (value : String) {headers : List (String × String)}
    (h : name ∉ headers.map Prod.fst) :
    putHeader name value headers = headers ++ [(name, value)] := by
  induction headers with
  | nil => rfl
  | cons p headers ih =>
    rw [List.map_cons, List.mem_cons, not_or] at h
    obtain ⟨k, v⟩ := p
    rw [putHeader, if_neg fun heq => h.1 heq.symm, ih h.2]
    rfl

/-- The line of a clean header with a new name adds it. -/
theorem addHeader_headerChars {h : String × String} (hc : Clean h)
    {headers : List (String × String)} (hnew : lowered h.1 ∉ headers.map Prod.fst) :
    addHeader headers (headerChars h) = headers ++ [(lowered h.1, h.2)] := by
  unfold addHeader headerChars
  rw [Chars.splitFirst?_append hc.colon]
  dsimp only
  rw [hc.name_trim, Chars.trim_cons_blank (by decide), hc.value_trim, String.ofList_toList]
  exact putHeader_of_notMem h.2 hnew

/-- The blank line ends the headers. -/
theorem readHeaders_of_blank {headers : List (String × String)} {s rest : List UInt8}
    {line : List Char} (hl : readLine s = .ok (line, rest))
    (hb : (Chars.trim line).isEmpty = true) : readHeaders headers s = .ok (headers, rest) := by
  rw [readHeaders]
  split
  · rename_i e he
    rw [hl] at he
    cases he
  · rename_i line' rest' hl'
    rw [hl] at hl'
    cases hl'
    exact if_pos hb

/-- A line that is not blank adds its header, if there is room for one more. -/
theorem readHeaders_of_line {headers : List (String × String)} {s rest : List UInt8}
    {line : List Char} (hl : readLine s = .ok (line, rest))
    (hb : (Chars.trim line).isEmpty = false) (hroom : headers.length < maxHeaders) :
    readHeaders headers s = readHeaders (addHeader headers line) rest := by
  rw [readHeaders]
  split
  · rename_i e he
    rw [hl] at he
    cases he
  · rename_i line' rest' hl'
    rw [hl] at hl'
    cases hl'
    rw [if_neg (by simp [hb]), if_neg (by omega)]

/-- The characters of header lines and of the empty line after them. -/
def headersChars (headers : List (String × String)) : List Char :=
  headers.flatMap (fun h => headerChars h ++ Reply.crlf) ++ Reply.crlf

/-- The first header line comes before the others. -/
theorem encode_headersChars_cons (h : String × String) (headers : List (String × String))
    (rest : List UInt8) :
    Utf8.encode (headersChars (h :: headers)) ++ rest =
      Utf8.encode (headerChars h ++ Reply.crlf) ++
        (Utf8.encode (headersChars headers) ++ rest) := by
  unfold headersChars
  rw [List.flatMap_cons, List.append_assoc, Utf8.encode_append, List.append_assoc]

/-- **Headers are read back**, after those read before. -/
theorem readHeaders_headersChars {headers : List (String × String)} (acc : List (String × String))
    (hclean : ∀ h ∈ headers, Clean h)
    (hshort : ∀ h ∈ headers, (Utf8.encode (headerChars h)).length + 2 ≤ maxLine)
    (hnodup : (acc.map Prod.fst ++ headers.map fun h => lowered h.1).Nodup)
    (hcount : acc.length + headers.length ≤ maxHeaders) (rest : List UInt8) :
    readHeaders acc (Utf8.encode (headersChars headers) ++ rest) =
      .ok (acc ++ headers.map fun h => (lowered h.1, h.2), rest) := by
  -- The names read so far stay apart from those to come, so that each header finds its place at the
  -- end.
  induction headers generalizing acc with
  | nil =>
    rw [List.map_nil, List.append_nil]
    exact readHeaders_of_blank (readLine_append (show InLine [] by decide) (by decide) rest)
      (by decide)
  | cons h headers ih =>
    have hh := hclean h List.mem_cons_self
    rw [List.length_cons] at hcount
    have hnew : lowered h.1 ∉ acc.map Prod.fst := by
      intro hm
      rw [List.map_cons] at hnodup
      exact (List.nodup_append.mp hnodup).2.2 _ hm _ List.mem_cons_self rfl
    rw [encode_headersChars_cons, readHeaders_of_line
      (readLine_append hh.inLine (hshort h List.mem_cons_self) _) (trim_headerChars_isEmpty h)
      (by omega), addHeader_headerChars hh hnew, ih]
    · rw [List.append_assoc]
      rfl
    · exact fun k hk => hclean k (List.mem_cons_of_mem h hk)
    · exact fun k hk => hshort k (List.mem_cons_of_mem h hk)
    · rw [List.map_append, List.append_assoc]
      exact hnodup
    · rw [List.length_append, List.length_singleton]
      omega

/-- The first header of a name is looked up in a list where no name comes twice. -/
theorem lookup_of_mem {headers : List (String × String)} (hnodup : (headers.map Prod.fst).Nodup)
    {name value : String} (hm : (name, value) ∈ headers) :
    headers.lookup name = some value := by
  induction headers with
  | nil => cases hm
  | cons p headers ih =>
    rw [List.map_cons, List.nodup_cons] at hnodup
    rcases List.mem_cons.mp hm with rfl | hm
    · rw [List.lookup_cons_self]
    · have hne : name ≠ p.1 := by
        intro heq
        exact hnodup.1 (heq ▸ List.mem_map_of_mem hm)
      rw [List.lookup_cons, beq_false_of_ne hne]
      exact ih hnodup.2 hm

/-! ## Requests -/

namespace Message

/-- The headers as they are read, with the names in lower case. -/
def readHeaders (m : Message) : List (String × String) :=
  m.headers.map fun h => (lowered h.1, h.2)

/-- The request as it is read. -/
def request (m : Message) : Request :=
  ⟨m.method, m.uri, m.minorVersion, m.readHeaders, m.body⟩

/-- The message is one that a client may send: its lines and its body keep to the limits, no header
comes twice, and one of them gives the length of the body. -/
structure Framed (maxBody : Nat) (m : Message) : Prop where
  /-- The method is known. -/
  method : m.method = "GET" ∨ m.method = "POST"
  /-- The target starts with a slash. -/
  uri_head : m.uri.toList.head? = some '/'
  /-- The target is one word. -/
  uri_word : Chars.Unbroken m.uri.toList
  /-- The version fits 32 bits. -/
  minorVersion : m.minorVersion < 4294967296
  /-- The request line with its end keeps to the limit. -/
  request_short : (Utf8.encode m.requestChars).length + 2 ≤ maxLine
  /-- The headers are not too many. -/
  count : m.headers.length ≤ maxHeaders
  /-- Every header is read as it was written. -/
  clean : ∀ h ∈ m.headers, Clean h
  /-- Every header line with its end keeps to the limit. -/
  headers_short : ∀ h ∈ m.headers, (Utf8.encode (headerChars h)).length + 2 ≤ maxLine
  /-- No name comes twice, in any case of the letters. -/
  nodup : (m.headers.map fun h => lowered h.1).Nodup
  /-- The length of the body is announced in digits. -/
  announced : ∃ h ∈ m.headers, lowered h.1 = "content-length" ∧
    Numeral.nat? h.2.toList = some m.body.length
  /-- The body keeps to the limit. -/
  fits : m.body.length ≤ maxBody

/-- The line with the length of a body keeps to the limit. -/
theorem length_contentLength_le {n : Nat} (h : n < 18446744073709551616) :
    (Utf8.encode (headerChars ("Content-Length", decimal n))).length + 2 ≤ maxLine := by
  have hencode := Utf8.length_encode_le (headerChars ("Content-Length", decimal n))
  have hdigits : (Numeral.ofNat n).length ≤ 20 := by
    have hpow : Nat.pow 10 20 = 100000000000000000000 := by decide
    exact Numeral.length_ofNat_le (by decide) (by omega)
  have hname : "Content-Length".toList.length = 14 := by decide
  have hchars : (headerChars ("Content-Length", decimal n)).length =
      "Content-Length".toList.length + ((Numeral.ofNat n).length + 1 + 1) := by
    show ("Content-Length".toList ++ ':' :: ' ' :: (decimal n).toList).length = _
    rw [List.length_append, List.length_cons, List.length_cons, decimal, String.toList_ofList,
      String.toList_ofList]
  unfold maxLine
  omega

/-- A call with a clean authorization and a body that keeps to the limit is framed. -/
theorem framed_post {authorization : String} {body : List UInt8} {maxBody : Nat}
    (hmax : maxBody < 18446744073709551616) (hbody : body.length ≤ maxBody)
    (hauth : Clean ("Authorization", authorization))
    (hshort : (Utf8.encode (headerChars ("Authorization", authorization))).length + 2 ≤ maxLine) :
    (post authorization body).Framed maxBody where
  method := Or.inr rfl
  uri_head := by
    show "/".toList.head? = some '/'
    decide
  uri_word := by
    show Chars.Unbroken "/".toList
    decide
  minorVersion := by
    show 1 < 4294967296
    decide
  request_short := by
    show (Utf8.encode ("POST".toList ++ ' ' :: "/".toList ++ " HTTP/1.".toList ++
      Numeral.ofNat 1)).length + 2 ≤ maxLine
    decide
  count := by
    show 2 ≤ maxHeaders
    decide
  clean := by
    intro h hm
    simp only [post, List.mem_cons, List.not_mem_nil, or_false] at hm
    rcases hm with rfl | rfl
    · exact hauth
    · exact (clean_decimal (by decide) _).1
  headers_short := by
    intro h hm
    simp only [post, List.mem_cons, List.not_mem_nil, or_false] at hm
    rcases hm with rfl | rfl
    · exact hshort
    · exact length_contentLength_le (by omega)
  nodup := by
    show [lowered "Authorization", lowered "Content-Length"].Nodup
    decide
  announced := by
    refine ⟨_, List.mem_cons_of_mem _ List.mem_cons_self, ?_, ?_⟩
    · show lowered "Content-Length" = "content-length"
      decide
    · show Numeral.nat? (decimal body.length).toList = some body.length
      rw [decimal, String.toList_ofList, Numeral.nat?_ofNat]
  fits := hbody

/-- A header of the message is found under its name in lower case. -/
theorem lookup_readHeaders {m : Message} (hnodup : (m.headers.map fun h => lowered h.1).Nodup)
    {h : String × String} (hm : h ∈ m.headers) :
    m.readHeaders.lookup (lowered h.1) = some h.2 := by
  refine lookup_of_mem ?_ (List.mem_map_of_mem hm)
  unfold readHeaders
  rw [List.map_map]
  exact hnodup

/-- The bytes of a message are those of its request line, its headers and its body. -/
theorem render_append (m : Message) (rest : List UInt8) :
    m.render ++ rest = Utf8.encode (m.requestChars ++ Reply.crlf) ++
      (Utf8.encode (headersChars m.headers) ++ (m.body ++ rest)) := by
  have hhead : m.headChars = m.requestChars ++ Reply.crlf ++ headersChars m.headers := by
    unfold headChars requestChars headersChars headerChars
    simp only [List.append_assoc]
  unfold render
  rw [hhead, Utf8.encode_append, List.append_assoc, List.append_assoc]

/-- The characters of the request line stand within a line. -/
theorem requestChars_inLine {maxBody : Nat} {m : Message} (hm : m.Framed maxBody) :
    InLine m.requestChars := by
  have hmethod : InLine m.method.toList := by
    rcases hm.method with h | h <;> rw [h] <;> exact inLine_of_unbroken (by decide)
  have hversion : InLine " HTTP/1.".toList := by decide
  exact ((hmethod.append ((inLine_of_unbroken hm.uri_word).cons (by decide))).append
    hversion).append (inLine_of_unbroken fun _ h => Numeral.isBlank_of_mem_ofNat h)

/-- The announced length is that of the body. -/
theorem bodyLength_readHeaders {maxBody : Nat} {m : Message} (hm : m.Framed maxBody)
    (hmax : maxBody < 18446744073709551616) : bodyLength m.readHeaders = .ok m.body.length := by
  obtain ⟨h, hmem, hname, hvalue⟩ := hm.announced
  have hlookup := lookup_readHeaders hm.nodup hmem
  have hlength := hm.fits
  rw [hname] at hlookup
  unfold bodyLength
  rw [hlookup]
  dsimp only
  rw [Numeral.unsigned?_of_nat? hvalue (by omega)]

/-- The body is taken off what starts with it. -/
theorem readBody_append {maxBody : Nat} {body : List UInt8} (hfits : body.length ≤ maxBody)
    (rest : List UInt8) : readBody maxBody body.length (body ++ rest) = .ok (body, rest) := by
  unfold readBody
  rw [if_neg (by omega), if_neg (by simp), List.take_left, List.drop_left]

/-- **A message is read back**, and what follows it is left unread. -/
theorem Framed.readRequest_render {maxBody : Nat} {m : Message} (hm : m.Framed maxBody)
    (hmax : maxBody < 18446744073709551616) (rest : List UInt8) :
    readRequest maxBody (m.render ++ rest) = .ok (m.request, rest) := by
  have hheaders := readHeaders_headersChars [] hm.clean hm.headers_short hm.nodup
    (by simpa using hm.count) (m.body ++ rest)
  unfold readRequest
  rw [render_append, readLine_append (requestChars_inLine hm) hm.request_short]
  dsimp only
  rw [requestLine?_requestChars hm.method hm.uri_head hm.uri_word hm.minorVersion]
  dsimp only
  rw [hheaders]
  dsimp only
  rw [List.nil_append, show m.headers.map _ = m.readHeaders from rfl,
    bodyLength_readHeaders hm hmax]
  dsimp only
  rw [readBody_append hm.fits]
  rfl

end Message

end Http

end RpcDaemon
