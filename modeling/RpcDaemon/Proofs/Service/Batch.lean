import RpcDaemon.Proofs.Rpc.Envelope
import RpcDaemon.Proofs.Service.Body

/-!
# Batches and single calls

A batch comes to the same as its items sent one after the other: the same things are run in the same
states, and the replies say the same, although a batch is answered with one array whose members
stand in the order of their names and a single call with a line of its own. Main statement:
`batch_agrees_with_singles`.
-/

namespace RpcDaemon

namespace Table

variable {σ : Type}

/-! ## The items of a batch -/

/-- The state after each of the given values was answered in turn. -/
def afterAll (t : Table σ) (vs : List Json) (w : World σ) : World σ :=
  vs.foldl (fun w v => (t.executeValue v w).2) w

/-- The first item of a batch is answered first, and the others in the state that this leaves. -/
theorem executeBatch_cons (t : Table σ) (v : Json) (rest : List Json) (w : World σ) :
    t.executeBatch (v :: rest) w =
      ((t.executeValue v w).1 :: (t.executeBatch rest (t.executeValue v w).2).1,
        (t.executeBatch rest (t.executeValue v w).2).2) := rfl

/-- The later items of a batch are answered in the state that the earlier ones leave. -/
theorem executeBatch_append (t : Table σ) (before later : List Json) (w : World σ) :
    t.executeBatch (before ++ later) w =
      ((t.executeBatch before w).1 ++ (t.executeBatch later (t.executeBatch before w).2).1,
        (t.executeBatch later (t.executeBatch before w).2).2) := by
  induction before generalizing w with
  | nil => rfl
  | cons v rest ih => rw [List.cons_append, executeBatch_cons, executeBatch_cons, ih, List.cons_append]

/-- Every item of a batch has one response. -/
theorem length_executeBatch (t : Table σ) (items : List Json) (w : World σ) :
    (t.executeBatch items w).1.length = items.length := by
  induction items generalizing w with
  | nil => rfl
  | cons v rest ih => rw [executeBatch_cons, List.length_cons, List.length_cons, ih]

/-- A batch leaves the state that its items leave in turn. -/
theorem executeBatch_snd (t : Table σ) (items : List Json) (w : World σ) :
    (t.executeBatch items w).2 = t.afterAll items w := by
  induction items generalizing w with
  | nil => rfl
  | cons v rest ih =>
    rw [executeBatch_cons, ih]
    rfl

/-- The response to an item is the one that the item alone would get, in the state that the items
before it leave. -/
theorem getElem?_executeBatch (t : Table σ) (items : List Json) (w : World σ) (i : Nat) :
    (t.executeBatch items w).1[i]? =
      items[i]?.map fun v => (t.executeValue v (t.afterAll (items.take i) w)).1 := by
  induction items generalizing w i with
  | nil => rfl
  | cons v rest ih =>
    rw [executeBatch_cons]
    cases i with
    | zero => rfl
    | succ i =>
      rw [List.getElem?_cons_succ, List.getElem?_cons_succ, ih, List.take_succ_cons]
      rfl

/-! ## Bodies one after the other -/

/-- Answers bodies in turn, each in the state that those before it leave. -/
def answerBodies (t : Table σ) : List (List UInt8) → World σ → List BodyReply × World σ
  | [], w => ([], w)
  | body :: rest, w =>
      ((t.answerBody body w).1 :: (t.answerBodies rest (t.answerBody body w).2).1,
        (t.answerBodies rest (t.answerBody body w).2).2)

/-- A body that holds a call is answered with the response to the call. -/
theorem answerBody_of_request (t : Table σ) (w : World σ) {body : List UInt8} {v : Json}
    {r : Rpc.Request} (hbody : Json.readBytes? body = some v) (hr : Rpc.Request.ofJson v = .ok r) :
    t.answerBody body w =
      (.answered (t.executeValue v w).1.body, (t.executeValue v w).2) := by
  have hvalue : t.executeValue v w = t.executeRequest r w := by
    rw [executeValue, hr]
  cases v with
  | object ms => rw [hvalue, answerBody_of_call t w hbody hr]
  | null => cases hr
  | bool b => cases hr
  | number n => cases hr
  | string s => cases hr
  | array items => cases hr

/-- Calls that are sent one after the other are answered with the responses that a batch of them
gets, and leave the same state. -/
theorem answerBodies_of_requests (t : Table σ) {bodies : List (List UInt8)} {items : List Json}
    (hbodies : bodies.map Json.readBytes? = items.map some)
    (hcalls : ∀ v ∈ items, ∃ r, Rpc.Request.ofJson v = .ok r) (w : World σ) :
    t.answerBodies bodies w =
      ((t.executeBatch items w).1.map fun r => .answered r.body, (t.executeBatch items w).2) := by
  induction items generalizing bodies w with
  | nil =>
    rw [List.map_nil, List.map_eq_nil_iff] at hbodies
    rw [hbodies]
    rfl
  | cons v items ih =>
    obtain ⟨body, bodies, rfl, hbody, hrest⟩ := List.map_eq_cons_iff.mp hbodies
    obtain ⟨r, hr⟩ := hcalls v List.mem_cons_self
    rw [answerBodies, answerBody_of_request t w hbody hr,
      ih hrest fun u hu => hcalls u (List.mem_cons_of_mem v hu), executeBatch_cons]
    rfl

/-- The line that answers a batch is read as the array of the replies. -/
theorem readBytes?_batchBody {rs : List Rpc.Response}
    (h : (Json.array (rs.map Rpc.Response.toJson)).Writable Json.depthLimit) :
    Json.readBytes? (Utf8.ofString (batchBody rs)) =
      some (.array (rs.map Rpc.Response.toJson)) :=
  (Json.Document.denotes_document h).readBytes?_line

/-- **A batch agrees with single calls.** It gets one response for each item, which is the response
that the item alone would get in the state that the items before it leave, whatever the items are.
If every item makes a call, and the replies can be written down, then the reply to the batch is read
as the array of what the replies to the same items, sent one after the other, are read as. Every
reply has the status for success and leaves the connection open, and both ways end in the same
state. -/
theorem batch_agrees_with_singles (t : Table σ) (items : List Json) (w : World σ) :
    (t.executeBatch items w).1.length = items.length ∧
    (∀ i v, items[i]? = some v → (t.executeBatch items w).1[i]? =
      some (t.executeValue v (t.afterAll (items.take i) w)).1) ∧
    (t.executeBatch items w).2 = t.afterAll items w ∧
    ∀ body bodies, Json.readBytes? body = some (.array items) →
      bodies.map Json.readBytes? = items.map some →
      (∀ v ∈ items, ∃ r, Rpc.Request.ofJson v = .ok r) →
      (Json.array ((t.executeBatch items w).1.map Rpc.Response.toJson)).Writable Json.depthLimit →
      let batch := t.answerBody body w
      let singles := t.answerBodies bodies w
      (∃ vs, Json.readBytes? (Utf8.ofString batch.1.body) = some (.array vs) ∧
        singles.1.map (fun reply => Json.readBytes? (Utf8.ofString reply.body)) = vs.map some) ∧
      (∀ reply ∈ batch.1 :: singles.1, reply.status = 200 ∧ reply.close = false) ∧
      batch.2 = singles.2 := by
  refine ⟨t.length_executeBatch items w, ?_, t.executeBatch_snd items w, ?_⟩
  · intro i v hv
    rw [getElem?_executeBatch, hv, Option.map_some]
  · intro body bodies hbody hbodies hcalls hwritable batch singles
    have hbatch : batch = (.answered (batchBody (t.executeBatch items w).1),
        (t.executeBatch items w).2) := answerBody_of_array t w hbody
    have hsingles : singles = ((t.executeBatch items w).1.map fun r => .answered r.body,
        (t.executeBatch items w).2) := answerBodies_of_requests t hbodies hcalls w
    rw [hbatch, hsingles]
    refine ⟨⟨_, readBytes?_batchBody hwritable, ?_⟩, ?_, rfl⟩
    · rw [List.map_map, List.map_map]
      refine List.map_congr_left fun r hr => ?_
      -- A reply within the array can be written down by itself.
      exact Rpc.Response.readBytes?_body (hwritable.of_mem_array (List.mem_map_of_mem hr))
    · intro reply hreply
      rcases List.mem_cons.mp hreply with rfl | hreply
      · exact ⟨rfl, rfl⟩
      · obtain ⟨r, -, rfl⟩ := List.mem_map.mp hreply
        exact ⟨rfl, rfl⟩

/-- A handler that breaks down and one that sees what the first has left, in a batch and alone. -/
theorem batch_agrees_with_singles_of_panic :
    let t : Table Nat :=
      ⟨[("boom", ⟨⟨true, true, false⟩, .custom 0⟩), ("count", ⟨⟨true, true, false⟩, .custom 1⟩)],
        fun n _ _ node store =>
          (if n = 0 then .panic (some "boom") else .value (.string (decimal store)), node,
            store + 1)⟩
    let w : World Nat := ⟨.fresh .initial, 0, []⟩
    let q₁ : Json := .object [("id", .string "a"), ("method", .string "boom")]
    let q₂ : Json := .object [("method", .string "count"), ("params", .array [])]
    let batch := t.answerBody (Utf8.encode (Json.array [q₁, q₂]).document.chars) w
    let singles := t.answerBodies
      [Utf8.encode q₁.document.chars, Utf8.encode q₂.document.chars] w
    (∃ vs, Json.readBytes? (Utf8.ofString batch.1.body) = some (.array vs) ∧
      singles.1.map (fun reply => Json.readBytes? (Utf8.ofString reply.body)) = vs.map some) ∧
    (∀ reply ∈ batch.1 :: singles.1, reply.status = 200 ∧ reply.close = false) ∧
    batch.2 = singles.2 := by
  intro t w q₁ q₂ batch singles
  have hfree : q₁.FloatFree ∧ q₂.FloatFree :=
    ⟨⟨trivial, trivial, trivial⟩, ⟨trivial, trivial, trivial⟩⟩
  have hordered : q₁.Ordered ∧ q₂.Ordered :=
    ⟨⟨by decide, trivial, trivial, trivial⟩, ⟨by decide, trivial, trivial, trivial⟩⟩
  have hbody := Json.readBytes?_encode (v := .array [q₁, q₂]) ⟨hfree.1, hfree.2, trivial⟩
    ⟨hordered.1, hordered.2, trivial⟩ (by decide)
  have h₁ := Json.readBytes?_encode hfree.1 hordered.1 (by decide)
  have h₂ := Json.readBytes?_encode hfree.2 hordered.2 (by decide)
  refine (batch_agrees_with_singles t [q₁, q₂] w).2.2.2 _ _ hbody ?_ ?_ ?_
  · rw [List.map_cons, List.map_singleton, h₁, h₂]
    rfl
  · intro v hv
    rcases List.mem_cons.mp hv with rfl | hv
    · exact ⟨_, rfl⟩
    · rcases List.mem_singleton.mp hv with rfl
      exact ⟨_, rfl⟩
  · have hresponses : (t.executeBatch [q₁, q₂] w).1 =
        [⟨.null, some ⟨-1, "boom", none⟩, .string "a"⟩, ⟨.string "1", none, .null⟩] := rfl
    have hreplies : (t.executeBatch [q₁, q₂] w).1.map Rpc.Response.toJson =
        [.object [("error", .object [("code", .int (WideInt.ofInt32 (-1))),
            ("message", .string "boom")]), ("id", .string "a"), ("result", .null)],
          .object [("error", .null), ("id", .null), ("result", .string "1")]] := by
      rw [hresponses]
      rfl
    rw [hreplies]
    refine ⟨⟨⟨⟨trivial, trivial, trivial⟩, trivial, trivial, trivial⟩,
      ⟨trivial, trivial, trivial, trivial⟩, trivial⟩, ⟨?_, ?_, trivial⟩, by decide⟩
    · exact ⟨by decide, ⟨by decide, trivial, trivial, trivial⟩, trivial, trivial, trivial⟩
    · exact ⟨by decide, trivial, trivial, trivial, trivial⟩

end Table

end RpcDaemon
