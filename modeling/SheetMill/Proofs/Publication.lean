import SheetMill.Proofs.Exchange

/-!
# A request is published at most once

Each attempt publishes under an identifier of its own, and there is no attempt after one whose
publication came back.
-/

namespace SheetMill.Broker

open Act List

/-! ## Identifiers -/

theorem ofDigitChars_replicate_zero (k : Nat) (cs : List Char) :
    Nat.ofDigitChars 10 (replicate k '0' ++ cs) 0 = Nat.ofDigitChars 10 cs 0 := by
  induction k with
  | zero => rfl
  | succ k ih => exact ih

theorem identifier_injective : Function.Injective identifier := by
  have hnum : ∀ k : Nat,
      Nat.ofDigitChars 10 (Decimal.padLeft 12 (toString k)).toList 0 = k := by
    intro k
    unfold Decimal.padLeft Decimal.zeros
    rw [String.toList_append, String.toList_ofList, ofDigitChars_replicate_zero,
      Nat.toString_eq_ofList_toDigits, String.toList_ofList]
    exact Nat.ofDigitChars_ten_toDigits
  intro m n h
  unfold identifier at h
  have hpad := congrArg String.toList h
  rw [String.toList_append, String.toList_append] at hpad
  rw [← hnum m, append_cancel_left hpad, hnum n]

/-! ## Requests -/

inductive Request where
  | validation (r : ValidationRequest)
  | schema (r : SchemaRequest)

namespace Request

def routingKey : Request → Value
  | .validation r => r.routingKey
  | .schema r => r.routingKey

def body : Request → String → String → Outcome Value
  | .validation r => r.body
  | .schema r => r.body

def publish (publisher : Publisher) : Request → Act Post String
  | .validation r => publisher.validation r
  | .schema r => publisher.schema r

/-- The bodies differ in the identifier and the date only. -/
theorem exists_payload {req : Request} {id date : String} {content : Value}
    (h : req.body id date = .ok content) : ∃ payload, req.body "" "" = .ok payload ∧
      content = (payload.withField "id" (.text id)).withField "date" (.text date) ∧
      content.item "id" = .ok (.text id) := by
  cases req with
  | validation r =>
    obtain ⟨hex, hhex, h⟩ := Outcome.bind_eq_ok.mp h
    cases h
    exact ⟨_, Outcome.bind_eq_ok.mpr ⟨hex, hhex, rfl⟩, rfl, rfl⟩
  | schema r =>
    cases h
    exact ⟨_, rfl, rfl, rfl⟩

end Request

/-! ## Publications -/

/-- The publications among the calls, each with what struck it. -/
def posts (outages : List (Outage Strike)) (calls : List (String × Value)) :
    List ((String × Value) × Option Strike) :=
  (answers outages calls).filter (·.1.1 == "basic_publish")

variable {publisher : Publisher} {req : Request} {start s s' : State}
  {new : List (String × Value)} {numbers : List Nat}

/-- The call publishes the request with the identifier of the given number. -/
def Carries (publisher : Publisher) (req : Request) (call : String × Value) (number : Nat) :
    Prop :=
  ∃ (now : Moment) (exchange payload content : Value) (written : String),
    publisher.exchange.item "exchange" = .ok exchange ∧ req.body "" "" = .ok payload ∧
    content = (payload.withField "id" (.text (identifier number))).withField "date" (.text now.text) ∧
    content.item "id" = .ok (.text (identifier number)) ∧ content.toJson = .ok written ∧
    call = ("basic_publish", .record [
      ("exchange", exchange), ("routing_key", req.routingKey), ("body", .text written),
      ("properties", .record [("message_id", .text (identifier number)),
        ("timestamp", .int now.seconds), ("delivery_mode", .int 2)])])

/-- All publications since the start carry the request, with the identifiers of rising numbers. -/
structure Logged (publisher : Publisher) (request : Request) (start s : State)
    (new : List (String × Value)) (numbers : List Nat) : Prop where
  called : start.Called s new
  carried : Forall₂ (fun post => Carries publisher request post.1) (posts start.outages new) numbers
  rising : numbers.Pairwise (· < ·)
  issued : ∀ number ∈ numbers, number ≤ s.issued

theorem Logged.of_same (h : Logged publisher req start s new numbers)
    (hcalls : s'.calls = s.calls) (houtages : s'.outages = s.outages)
    (hissued : s.issued ≤ s'.issued) : Logged publisher req start s' new numbers :=
  ⟨⟨hcalls.trans h.called.calls, houtages.trans h.called.outages⟩, h.carried, h.rising,
    fun number hnum => (h.issued number hnum).trans hissued⟩

theorem posts_append (outages : List (Outage Strike)) (calls new : List (String × Value)) :
    posts outages (calls ++ new) = posts outages calls ++ posts (left outages calls) new := by
  unfold posts
  rw [answers_append, filter_append]

theorem posts_eq_nil (outages : List (Outage Strike)) (h : ∀ call ∈ new, call.1 ≠ "basic_publish") :
    posts outages new = [] := by
  unfold posts
  induction new generalizing outages with
  | nil => rfl
  | cons call calls ih =>
    rw [answers, filter_cons_of_neg (by simpa using h call mem_cons_self)]
    exact ih _ fun c hc => h c (mem_cons_of_mem _ hc)

/-- None of the publications came back. -/
def Failed (publisher : Publisher) (req : Request) (start s : State) : Prop :=
  ∃ new numbers, Logged publisher req start s new numbers ∧
    ∀ post ∈ posts start.outages new, post.2.isSome = true

/-- The last publication came back, and only that one. -/
def Published (publisher : Publisher) (req : Request) (start : State) (id : String) (s : State) :
    Prop :=
  ∃ new numbers failed post number, Logged publisher req start s new numbers ∧
    posts start.outages new = failed ++ [post] ∧ (∀ post ∈ failed, post.2.isSome = true) ∧
    post.2 = none ∧ Carries publisher req post.1 number ∧ id = identifier number

theorem Failed.reaches (h : Failed publisher req start s) (hs : s.Reaches s') :
    Failed publisher req start s' := by
  obtain ⟨before, numbers, hlogged, hfail⟩ := h
  obtain ⟨⟨new, hnew, hcalls⟩, hrest⟩ := hs
  have hissued : s'.issued = s.issued := congrArg (·.2) hrest
  have hposts : posts start.outages (before ++ new) = posts start.outages before := by
    rw [posts_append, posts_eq_nil _ hcalls, append_nil]
  refine ⟨before ++ new, numbers, ⟨hlogged.called.trans hnew, ?_, hlogged.rising, ?_⟩, ?_⟩
  · rw [hposts]
    exact hlogged.carried
  · rw [hissued]
    exact hlogged.issued
  · rw [hposts]
    exact hfail

theorem Logged.call (h : Logged publisher req start s new numbers) {call : String × Value}
    (hnum : ∀ number ∈ numbers, number < s.issued)
    (hcarries : Carries publisher req call s.issued)
    (hcall : s.Called s' [call] ∧ s'.rest = s.rest) :
    Logged publisher req start s' (new ++ [call]) (numbers ++ [s.issued]) ∧
      posts start.outages (new ++ [call]) =
        posts start.outages new ++ [(call, (Outage.strike "broker" call.1 s.outages).1)] := by
  have hissued : s'.issued = s.issued := congrArg (·.2) hcall.2
  have hname : call.1 = "basic_publish" := by
    obtain ⟨_, _, _, _, _, _, _, _, _, _, rfl⟩ := hcarries
    rfl
  have hposts : posts start.outages (new ++ [call]) =
      posts start.outages new ++ [(call, (Outage.strike "broker" call.1 s.outages).1)] := by
    rw [posts_append, ← h.called.outages]
    simp [posts, answers, hname]
  refine ⟨⟨h.called.trans hcall.1, ?_, ?_, ?_⟩, hposts⟩
  · rw [hposts]
    exact rel_append h.carried (.cons hcarries .nil)
  · exact pairwise_append.mpr ⟨h.rising, pairwise_singleton _ _, by simpa using hnum⟩
  · intro number hmem
    rw [hissued]
    rcases mem_append.mp hmem with hmem | hmem
    · exact h.issued number hmem
    · exact (mem_singleton.mp hmem).le

theorem ends_send {t : Post} (h : Failed publisher req start t.broker) :
    (publisher.send req.routingKey req.body).Ends t
      (fun id t' => Published publisher req start id t'.broker)
      fun _ t' => Failed publisher req start t'.broker := by
  obtain ⟨new, numbers, hlogged, hfail⟩ := h
  have h1 : Logged publisher req start { t.broker with issued := t.broker.issued + 1 } new
      numbers := hlogged.of_same rfl rfl (Nat.le_succ _)
  refine .bind (.within (.bind (ends_modify (.get (ends_pure (.get ?_))))))
  refine .given (fun content hcont => ?_) fun _ _ => ⟨new, numbers, h1, hfail⟩
  refine .given (fun exchange hexch => ?_) fun _ _ => ⟨new, numbers, h1, hfail⟩
  refine .given (fun written hwritten => .get ?_) fun _ _ => ⟨new, numbers, h1, hfail⟩
  obtain ⟨payload, hpay, rfl, hid⟩ := Request.exists_payload hcont
  have hcarries : Carries publisher req ("basic_publish", _) (t.broker.issued + 1) :=
    ⟨t.broker.now, exchange, payload, _, written, hexch, hpay, rfl, hid, hwritten, rfl⟩
  have hlt : ∀ number ∈ numbers, number < t.broker.issued + 1 := fun number hmem =>
    Nat.lt_succ_of_le (hlogged.issued number hmem)
  refine .bind (.within ((ends_call _ _ _ _).mono (fun _ t' h' => ends_pure ?_) fun _ t' h' => ?_))
  · obtain ⟨hnew, hposts⟩ := h1.call hlt hcarries h'.1
    exact ⟨_, _, _, _, _, hnew, hposts, hfail, h'.2, hcarries, rfl⟩
  · obtain ⟨hnew, hposts⟩ := h1.call hlt hcarries h'.1
    refine ⟨_, _, hnew, fun post hpost => ?_⟩
    rw [hposts] at hpost
    rcases mem_append.mp hpost with hpost | hpost
    · exact hfail post hpost
    · rw [mem_singleton.mp hpost]
      exact h'.2

theorem ends_publish (publisher : Publisher) (req : Request) (t : Post) :
    (req.publish publisher).Ends t
      (fun id t' => Published publisher req t.broker id t'.broker)
      fun _ t' => Failed publisher req t.broker t'.broker := by
  have hsame : ∀ {s s' : State}, Failed publisher req t.broker s → s'.calls = s.calls →
      s'.outages = s.outages → s'.issued = s.issued → Failed publisher req t.broker s' :=
    fun ⟨new, numbers, hlogged, hfail⟩ hcalls houtages hissued =>
      ⟨new, numbers, hlogged.of_same hcalls houtages hissued.ge, hfail⟩
  obtain ⟨op, hpub⟩ : ∃ op, req.publish publisher =
      publisher.publish op req.routingKey req.body := by
    cases req with
    | validation r => exact ⟨_, rfl⟩
    | schema r => exact ⟨_, rfl⟩
  rw [hpub]
  have hstart : Failed publisher req t.broker t.broker :=
    ⟨[], [], ⟨⟨(append_nil _).symm, rfl⟩, .nil, .nil, by simp⟩, by simp [posts, answers]⟩
  refine (Retry.ends_retry (C := True) (P := fun t' => Failed publisher req t.broker t'.broker)
    publisher.policy (fun n t' ht => ?_) (fun n delay f => ?_) (fun f => ?_) hstart).mono
    (fun _ _ h => h) fun _ _ h => h.2
  · refine .bind ((connects_renew publisher _ t'.broker t' (.refl _)).mono (fun _ t1 h1 => ?_)
      fun _ t1 h1 => ⟨trivial, ht.reaches h1.1⟩)
    exact (ends_send (ht.reaches h1)).mono (fun _ _ h => h) fun _ _ h => ⟨trivial, h⟩
  · refine (ensures_modify fun t' ht => ?_).bind fun _ _ => .within (ensures_modify fun s hs => ?_)
      fun _ _ => rfl
    · exact hsame ht rfl rfl rfl
    · exact hsame hs rfl rfl rfl
  · refine ensures_modify fun t' ht => ?_
    exact hsame ht rfl rfl rfl

/-- Of the publications of one request at most one comes back, and then it is the last and its
identifier is the answer; where there is no answer none came back. All carry the same payload, each
with an identifier of its own. -/
theorem published_once (publisher : Publisher) (request : Request) (t : Post) :
    ∃ new numbers failed last,
      Logged publisher request t.broker ((request.publish publisher).outcome t).2.broker new numbers ∧
      (numbers.map identifier).Nodup ∧ posts t.broker.outages new = failed ++ last ∧
      (∀ post ∈ failed, post.2.isSome = true) ∧
      match ((request.publish publisher).outcome t).1 with
      | .ok id => ∃ post number, last = [post] ∧ post.2 = none ∧
          Carries publisher request post.1 number ∧ id = identifier number
      | .error _ => last = [] := by
  have hnodup : ∀ {s new numbers}, Logged publisher request t.broker s new numbers →
      (numbers.map identifier).Nodup := fun h =>
    (h.rising.imp fun hlt => Nat.ne_of_lt hlt).map identifier fun _ _ hne heq =>
      hne (identifier_injective heq)
  rcases (ends_publish publisher request t).cases with ⟨id, t', hrun, h⟩ | ⟨f, t', hrun, h⟩
  · obtain ⟨new, numbers, failed, post, number, hlogged, hposts, hfailed, hback, hcarries, hid⟩ := h
    rw [outcome_of_ok hrun]
    exact ⟨new, numbers, failed, [post], hlogged, hnodup hlogged, hposts, hfailed,
      post, number, rfl, hback, hcarries, hid⟩
  · obtain ⟨new, numbers, hlogged, hfailed⟩ := h
    rw [outcome_of_error hrun]
    exact ⟨new, numbers, _, [], hlogged, hnodup hlogged, (append_nil _).symm, hfailed, rfl⟩

end SheetMill.Broker
