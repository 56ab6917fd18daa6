import RpcDaemon.Proofs.Http.Announcement
import RpcDaemon.Proofs.Http.Stream
import RpcDaemon.Proofs.Service.Body
import RpcDaemon.Service.Connection

/-!
# The dialogue on a connection

The requests of a stream are read one after the other, and each is answered before the next one is
read. `Service.Dialogue` says so step by step, and `Service.serveHttp` follows it. Main statement:
every reply but the last leaves the connection open, and the last one says truly whether the server
reads on.
-/

namespace RpcDaemon

/-! ## What is sent -/

namespace Http

/-- Why a connection is closed without a reply: the stream ended, or its next line is none that a
reply could be given to. -/
theorem FramingError.replyStatus?_eq_none_iff (e : FramingError) :
    e.replyStatus? = none ↔
      e = .closed ∨ e = .malformedRequestLine ∨ e = .lineTooLong ∨ e = .truncatedBody := by
  cases e <;> simp [FramingError.replyStatus?]

end Http

/-- What is sent is the concatenation of the replies, each with its own date. -/
theorem Served.bytes_of_replies {σ : Type} {served : Served σ} {replies : List Http.Reply}
    (h : served.sent = replies.map Sent.reply) (clock : Nat → Nat) :
    served.bytes clock = (replies.zipIdx.map fun p => p.1.render (clock p.2)).flatten := by
  rw [Served.bytes, h, List.zipIdx_map, List.map_map]
  rfl

namespace Service

variable {σ : Type} {s : Service σ}

/-! ## Answering a request -/

/-- The reply to a request that is not turned away, and the state afterwards. -/
def answer (s : Service σ) (r : Http.Request) (w : World σ) : Http.Reply × World σ :=
  let (reply, w) := s.table.answerBody r.body w
  (Http.Reply.of reply.status reply.body (r.keepAlive && !reply.close), w)

/-- The replies to requests of which none is turned away, and the state afterwards. -/
def answerAll (s : Service σ) : List Http.Request → World σ → List Http.Reply × World σ
  | [], w => ([], w)
  | r :: rest, w =>
      ((s.answer r w).1 :: (s.answerAll rest (s.answer r w).2).1,
        (s.answerAll rest (s.answer r w).2).2)

/-- What is sent to a request that is turned away. -/
def Rejection.reply : Rejection → Http.Reply
  | .notFound => .closing 404
  | .noCredentials => .challenge
  | .wrongCredentials => .challenge

/-- The reply to a request carries its status, and stays open if request and body agree to it. -/
theorem answer_fst (s : Service σ) (r : Http.Request) (w : World σ) :
    (s.answer r w).1 =
      .json (s.table.answerBody r.body w).1.status (s.table.answerBody r.body w).1.body
        (r.keepAlive && !(s.table.answerBody r.body w).1.close) := by
  have hne : (s.table.answerBody r.body w).1.status ≠ 401 := by
    rcases Table.answerBody_cases s.table r.body w with ⟨-, h, -⟩ | ⟨-, h, -⟩ | ⟨-, h, -⟩ <;> omega
  exact if_neg hne

/-- A reply that leaves the connection open has the status for success. -/
theorem status_of_keepAlive_answer {r : Http.Request} {w : World σ}
    (h : (s.answer r w).1.keepAlive = true) : (s.answer r w).1.status = 200 := by
  rw [answer_fst] at h ⊢
  show (s.table.answerBody r.body w).1.status = 200
  rcases Table.answerBody_cases s.table r.body w with ⟨-, hs, -⟩ | ⟨-, -, hc, -⟩ | ⟨-, -, hc, -⟩
  · exact hs
  · simp [Http.Reply.keepAlive, hc] at h
  · simp [Http.Reply.keepAlive, hc] at h

/-! ## The steps of a dialogue -/

/-- `Dialogue s bytes w replies w'`: on a stream that holds `bytes`, in the state `w`, exactly
`replies` are written until the connection is closed, which leaves the state `w'`. -/
inductive Dialogue (s : Service σ) :
    List UInt8 → World σ → List Http.Reply → World σ → Prop where
  /-- No request can be read, and nothing is said about it. -/
  | silent {bytes : List UInt8} {w : World σ} {e : Http.FramingError} :
      Http.readRequest s.maxBody bytes = .error e → e.replyStatus? = none →
        Dialogue s bytes w [] w
  /-- No request can be read, and the peer is told so. -/
  | misframed {bytes : List UInt8} {w : World σ} {e : Http.FramingError} {status : Nat} :
      Http.readRequest s.maxBody bytes = .error e → e.replyStatus? = some status →
        Dialogue s bytes w [.closing status] w
  /-- A request is turned away. -/
  | turnedAway {bytes rest : List UInt8} {w : World σ} {r : Http.Request} {why : Rejection} :
      Http.readRequest s.maxBody bytes = .ok (r, rest) → s.rejection? r = some why →
        Dialogue s bytes w [why.reply] w
  /-- A request is answered, and the connection closed. -/
  | last {bytes rest : List UInt8} {w : World σ} {r : Http.Request} :
      Http.readRequest s.maxBody bytes = .ok (r, rest) → s.rejection? r = none →
        (s.answer r w).1.keepAlive = false →
          Dialogue s bytes w [(s.answer r w).1] (s.answer r w).2
  /-- A request is answered, and the connection stays open. -/
  | next {bytes rest : List UInt8} {w w' : World σ} {r : Http.Request}
      {replies : List Http.Reply} :
      Http.readRequest s.maxBody bytes = .ok (r, rest) → s.rejection? r = none →
        (s.answer r w).1.keepAlive = true → Dialogue s rest (s.answer r w).2 replies w' →
          Dialogue s bytes w ((s.answer r w).1 :: replies) w'

/-- What serving does with the first request of a stream and with what follows it. -/
theorem serveRequests_cons (s : Service σ) (last : Http.FramingError) (r : Http.Request)
    (rest : List Http.Request) (w : World σ) (h : s.rejection? r = none) :
    s.serveRequests last (r :: rest) w =
      if (s.answer r w).1.keepAlive then
        (s.serveRequests last rest (s.answer r w).2).after (s.answer r w).1
      else Served.one (s.answer r w).1 (s.answer r w).2 := by
  have hk : (s.answer r w).1.keepAlive =
      (r.keepAlive && !(s.table.answerBody r.body w).1.close) := by
    rw [answer_fst]
    rfl
  rw [serveRequests, h, hk]
  rfl

/-- A request that is not turned away is answered, and then the rest of the stream is served if the
reply leaves the connection open. -/
theorem serveHttp_of_answer (s : Service σ) {bytes rest : List UInt8} {r : Http.Request}
    (h : Http.readRequest s.maxBody bytes = .ok (r, rest)) (hr : s.rejection? r = none)
    (w : World σ) :
    s.serveHttp bytes w =
      if (s.answer r w).1.keepAlive then
        (s.serveHttp rest (s.answer r w).2).after (s.answer r w).1
      else Served.one (s.answer r w).1 (s.answer r w).2 := by
  rw [serveHttp, Http.readAll_of_ok h]
  exact serveRequests_cons s _ r _ w hr

/-- What is sent to a request that is turned away is one reply, and the state stays. -/
theorem turnAway_eq (s : Service σ) (w : World σ) (why : Rejection) :
    (s.turnAway w why).sent = [.reply why.reply] ∧ (s.turnAway w why).world = w := by
  cases why <;> exact ⟨rfl, rfl⟩

/-- **Serving follows the dialogue.** -/
theorem serveHttp_dialogue (s : Service σ) (bytes : List UInt8) (w : World σ) :
    ∃ replies, (s.serveHttp bytes w).sent = replies.map Sent.reply ∧
      Dialogue s bytes w replies (s.serveHttp bytes w).world := by
  -- The stream gets shorter with every request, so the induction is on its length.
  induction hn : bytes.length using Nat.strongRecOn generalizing bytes w with
  | ind n ih =>
    unfold serveHttp
    cases hr : Http.readRequest s.maxBody bytes with
    | error e =>
      rw [Http.readAll_of_error hr]
      show ∃ replies, (finish e w).sent = _ ∧ Dialogue s bytes w replies (finish e w).world
      unfold finish
      cases hs : e.replyStatus? with
      | none => exact ⟨[], rfl, .silent hr hs⟩
      | some status => exact ⟨[.closing status], rfl, .misframed hr hs⟩
    | ok p =>
      obtain ⟨r, rest⟩ := p
      rw [Http.readAll_of_ok hr]
      show ∃ replies, (s.serveRequests _ (r :: _) w).sent = _ ∧
        Dialogue s bytes w replies (s.serveRequests _ (r :: _) w).world
      cases hj : s.rejection? r with
      | some why =>
        obtain ⟨hsent, hworld⟩ := turnAway_eq s w why
        refine ⟨[why.reply], ?_, ?_⟩
        · rw [serveRequests, hj]
          exact hsent
        · rw [serveRequests, hj]
          show Dialogue s bytes w _ (s.turnAway w why).world
          rw [hworld]
          exact .turnedAway hr hj
      | none =>
        rw [serveRequests_cons s _ r _ w hj]
        cases hk : (s.answer r w).1.keepAlive with
        | false => exact ⟨[(s.answer r w).1], rfl, .last hr hj hk⟩
        | true =>
          have hlt : rest.length < n := hn ▸ Http.length_lt_of_readRequest hr
          obtain ⟨replies, hsent, hd⟩ := ih rest.length hlt rest (s.answer r w).2 rfl
          refine ⟨(s.answer r w).1 :: replies, ?_, .next hr hj hk hd⟩
          show Sent.reply _ :: (s.serveHttp rest (s.answer r w).2).sent = _
          rw [hsent, List.map_cons]

/-! ## What holds along a dialogue -/

variable {bytes : List UInt8} {w w' : World σ} {replies : List Http.Reply}

/-- The reply to a request that is turned away closes the connection. -/
theorem Rejection.keepAlive_reply (why : Rejection) : why.reply.keepAlive = false := by
  cases why <;> rfl

/-- The requests that a dialogue executes are the first ones of the stream. None of them would be
turned away, each has its reply, in order, and at most one further reply follows. If every reply
leaves the connection open, then reading failed after the last one in a way that has no reply. -/
theorem Dialogue.exists_executed (h : Dialogue s bytes w replies w') :
    ∃ executed rest, Http.Reads s.maxBody bytes executed rest ∧
      (∀ r ∈ executed, s.rejection? r = none) ∧
      (s.answerAll executed w).2 = w' ∧
      (s.answerAll executed w).1 <+: replies ∧
      replies.length ≤ executed.length + 1 ∧
      ((∀ reply ∈ replies, reply.keepAlive = true) → replies.length = executed.length ∧
        ∃ e, Http.readRequest s.maxBody rest = .error e ∧ e.replyStatus? = none) := by
  induction h with
  | @silent bytes w e hr he =>
    exact ⟨[], bytes, .nil bytes, by simp, rfl, List.prefix_refl _, by simp,
      fun _ => ⟨rfl, e, hr, he⟩⟩
  | @misframed bytes w e status hr he =>
    refine ⟨[], bytes, .nil bytes, by simp, rfl, List.nil_prefix, by simp, ?_⟩
    intro hk
    have hclosed : (Http.Reply.closing status).keepAlive = false := by
      unfold Http.Reply.closing Http.Reply.of
      split <;> rfl
    have hopen := hk _ List.mem_cons_self
    rw [hclosed] at hopen
    cases hopen
  | @turnedAway bytes rest w r why hr hj =>
    refine ⟨[], bytes, .nil bytes, by simp, rfl, List.nil_prefix, by simp, ?_⟩
    intro hk
    have hopen := hk _ List.mem_cons_self
    rw [why.keepAlive_reply] at hopen
    cases hopen
  | @last bytes rest w r hr hj hk =>
    refine ⟨[r], rest, .cons hr (.nil rest), by simp [hj], rfl, List.prefix_refl _, by simp, ?_⟩
    intro hopen
    have := hopen _ List.mem_cons_self
    rw [hk] at this
    cases this
  | @next bytes rest w w' r replies hr hj hk hd ih =>
    obtain ⟨executed, rest', hread, hadm, hworld, hpre, hlen, hend⟩ := ih
    refine ⟨r :: executed, rest', .cons hr hread, ?_, hworld, ?_, ?_, ?_⟩
    · intro q hq
      rcases List.mem_cons.mp hq with rfl | hq
      · exact hj
      · exact hadm q hq
    · rw [answerAll]
      exact List.cons_prefix_cons.mpr ⟨rfl, hpre⟩
    · rw [List.length_cons, List.length_cons]
      omega
    · intro hopen
      obtain ⟨hl, e, he⟩ := hend fun reply hm => hopen reply (List.mem_cons_of_mem _ hm)
      exact ⟨by rw [List.length_cons, List.length_cons, hl], e, he⟩

/-- Every reply but the last has the status for success and leaves the connection open. -/
theorem Dialogue.open_of_not_last (h : Dialogue s bytes w replies w') (i : Nat)
    (hi : i + 1 < replies.length) :
    replies[i].status = 200 ∧ replies[i].keepAlive = true := by
  induction h generalizing i with
  | silent hr he => simp at hi
  | misframed hr he => simp at hi
  | turnedAway hr hj => simp at hi
  | last hr hj hk => simp at hi
  | next hr hj hk hd ih =>
    cases i with
    | zero => exact ⟨status_of_keepAlive_answer hk, hk⟩
    | succ i => exact ih i (by simpa using hi)

/-- **Close discipline.** What is written is a sequence of replies. The first of them answer, in
order, the requests that are executed, which are the first of the stream, so none of these is left
without its reply and nothing that follows the last reply's request is executed. Every reply but
the last has status 200 and says that the connection stays open; a reply that has another status
or does not say so is the last one; and if the last one says so, then reading the next request
fails in a way that has no reply. -/
theorem serveHttp_close_discipline (s : Service σ) (bytes : List UInt8) (w : World σ) :
    ∃ (replies : List Http.Reply) (executed : List Http.Request) (rest : List UInt8),
      (∀ clock, (s.serveHttp bytes w).bytes clock =
        (replies.zipIdx.map fun p => p.1.render (clock p.2)).flatten) ∧
      Http.Reads s.maxBody bytes executed rest ∧
      (∀ r ∈ executed, s.rejection? r = none) ∧
      (s.serveHttp bytes w).world = (s.answerAll executed w).2 ∧
      (s.answerAll executed w).1 <+: replies ∧
      (∀ i, ∀ hi : i + 1 < replies.length,
        i < executed.length ∧ replies[i].status = 200 ∧ replies[i].SaysKeepAlive) ∧
      (∀ i, ∀ hi : i < replies.length,
        replies[i].status ≠ 200 ∨ replies[i].SaysClose ∨ ¬ replies[i].SaysKeepAlive →
          i + 1 = replies.length) ∧
      ∀ reply, replies.getLast? = some reply → reply.SaysKeepAlive →
        executed.length = replies.length ∧
          ∃ e, Http.readRequest s.maxBody rest = .error e ∧ e.replyStatus? = none ∧
            (e = .closed ∨ e = .malformedRequestLine ∨ e = .lineTooLong ∨ e = .truncatedBody) := by
  obtain ⟨replies, hsent, hd⟩ := serveHttp_dialogue s bytes w
  obtain ⟨executed, rest, hread, hadm, hworld, hpre, hlen, hend⟩ := hd.exists_executed
  refine ⟨replies, executed, rest, ?_, hread, hadm, hworld.symm, hpre, ?_, ?_, ?_⟩
  · exact Served.bytes_of_replies hsent
  · intro i hi
    obtain ⟨hstatus, hkeep⟩ := hd.open_of_not_last i hi
    exact ⟨by omega, hstatus, (Http.Reply.saysKeepAlive_iff _).mpr hkeep⟩
  · intro i hi hbad
    by_cases hnext : i + 1 < replies.length
    · obtain ⟨hstatus, hkeep⟩ := hd.open_of_not_last i hnext
      have hsays := (Http.Reply.saysKeepAlive_iff _).mpr hkeep
      rcases hbad with hb | hb | hb
      · exact absurd hstatus hb
      · exact absurd hsays (Http.Reply.not_saysKeepAlive_of_saysClose hb)
      · exact absurd hsays hb
    · omega
  · intro reply hlast hsays
    -- With the last reply open, all of them are.
    have hall : ∀ reply ∈ replies, reply.keepAlive = true := by
      intro x hx
      obtain ⟨i, hi, rfl⟩ := List.getElem_of_mem hx
      by_cases hi' : i + 1 < replies.length
      · exact (hd.open_of_not_last i hi').2
      · have hx' : replies.getLast? = some replies[i] := by
          rw [List.getLast?_eq_getElem?, show replies.length - 1 = i by omega,
            List.getElem?_eq_getElem hi]
        rw [hlast] at hx'
        exact (Http.Reply.saysKeepAlive_iff _).mp (Option.some.inj hx' ▸ hsays)
    obtain ⟨hl, e, he, hn⟩ := hend hall
    exact ⟨hl.symm, e, he, hn, (Http.FramingError.replyStatus?_eq_none_iff e).mp hn⟩

end Service

end RpcDaemon
