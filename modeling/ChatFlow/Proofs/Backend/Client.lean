import ChatFlow.Backend.Client
import ChatFlow.Proofs.Backend.Retry

/-!
# What comes of a request to the backend

What a transport delivers for a request is transient, brings an object, or refuses the request:
`receive_eq_ok`, `receive_refuses` and `receive_fails` say to what result each of them leads.

`requests_made_until_settled` is the law of a whole exchange. The request is sent up to the first
delivery that is not transient, at most as often as the settings allow and once at least, with a
pause between one request and the next. The last delivery alone decides what the exchange comes to.
Nothing else ends an exchange, in the adapters for replies and actions neither, unless the request
cannot be made at all; then nothing is sent.
-/

namespace ChatFlow.Backend

/-! ## Deliveries -/

namespace Delivery

/-- The same request may succeed later. -/
def IsTransient : Delivery → Prop
  | response status _ => status = 429 ∨ 500 ≤ status
  | unreachable _ => True
  | raised _ => False

/-- The status as errors give it, which is zero where there was no response. -/
def status : Delivery → Int
  | response status _ => status
  | _ => 0

/-- The request was accepted, and the body of the response is this object. -/
def Brings (d : Delivery) (fs : Fields) : Prop :=
  ∃ status body, d = response status body ∧ status < 400 ∧ body.value? = some (.object fs)

/-- The request was rejected, or it was accepted and the body of the response is no object. -/
def Refuses (d : Delivery) : Prop :=
  ∃ status body, d = response status body ∧
    (400 ≤ status ∧ status < 500 ∧ status ≠ 429 ∨
      status < 400 ∧ ∀ fs, body.value? ≠ some (.object fs))

/-- The transport did its part: there was a response, or the backend was not reached. -/
def Regular (d : Delivery) : Prop :=
  ∀ e, d ≠ raised e

end Delivery

/-- An error that a backend can cause: an error of the configuration, or a transient one. -/
def Foreseen (e : Fault) : Prop :=
  (∃ m, e = .engine (.misconfigured m)) ∨ ∃ m status, e = .engine (.transient m "" status)

open Delivery

variable {endpoint : String} {d : Delivery} {fs : Fields} {status : Int} {e : Fault} {body : Body}

theorem receive_of_transient (h : (response status body).IsTransient) :
    receive endpoint (response status body) = .error (.engine (.transient
      ("Backend '" ++ endpoint ++ "' returned " ++ toString status) "" status)) :=
  if_pos h

theorem receive_of_rejected (h : 400 ≤ status) (hlasting : ¬ (response status body).IsTransient) :
    receive endpoint (response status body) =
      .error (misconfigured endpoint ("rejected the request (" ++ toString status ++ ")")) :=
  (if_neg hlasting).trans (if_pos h)

theorem receive_of_accepted (endpoint : String) (body : Body) (h : status < 400) :
    receive endpoint (response status body) =
      match body.value? with
      | none => .error (misconfigured endpoint "returned a non-JSON body")
      | some (.object fs) => .ok fs
      | some v =>
        .error (misconfigured endpoint ("returned " ++ kindName v ++ ", expected object")) := by
  have hlasting : ¬ (status = 429 ∨ 500 ≤ status) := by omega
  have haccepted : ¬ 400 ≤ status := by omega
  exact (if_neg hlasting).trans (if_neg haccepted)

/-- What a regular delivery leads to. -/
inductive Received (endpoint : String) (d : Delivery) : Prop
  | fails (m : String) (h : d.IsTransient)
      (eq : receive endpoint d = .error (.engine (.transient m "" d.status)))
  | refuses (m : String) (h : d.Refuses)
      (eq : receive endpoint d = .error (.engine (.misconfigured m)))
  | brings (fs : Fields) (h : d.Brings fs) (eq : receive endpoint d = .ok fs)

theorem received (endpoint : String) (h : d.Regular) : Received endpoint d := by
  cases d with
  | unreachable m => exact .fails _ trivial rfl
  | raised e => exact absurd rfl (h e)
  | response status body =>
    by_cases htransient : (response status body).IsTransient
    · exact .fails _ htransient (receive_of_transient htransient)
    obtain ⟨hpatience, hserver⟩ := not_or.mp htransient
    rcases Int.lt_or_le status 400 with haccepted | hrejected
    · have heq := receive_of_accepted endpoint body haccepted
      have refuses (hnone : ∀ fs, body.value? ≠ some (.object fs)) :
          (response status body).Refuses :=
        ⟨status, body, rfl, .inr ⟨haccepted, hnone⟩⟩
      cases hvalue : body.value? with
      | none =>
        rw [hvalue] at heq
        exact .refuses _ (refuses (by simp [hvalue])) heq
      | some v =>
        rw [hvalue] at heq
        cases v with
        | object fs => exact .brings fs ⟨status, body, rfl, haccepted, hvalue⟩ heq
        | _ => exact .refuses _ (refuses (by simp [hvalue])) heq
    · have hrefuses : (response status body).Refuses :=
        ⟨status, body, rfl, .inl ⟨hrejected, by omega, hpatience⟩⟩
      exact .refuses _ hrefuses (receive_of_rejected hrejected htransient)

namespace Delivery

theorem Brings.not_transient (h : d.Brings fs) : ¬ d.IsTransient := by
  obtain ⟨status, body, rfl, haccepted, -⟩ := h
  rintro (hpatience | hserver) <;> omega

theorem Refuses.not_transient (h : d.Refuses) : ¬ d.IsTransient := by
  obtain ⟨status, body, rfl, ⟨-, hserver, hpatience⟩ | ⟨haccepted, -⟩⟩ := h
  · exact not_or.mpr ⟨hpatience, Int.not_le.mpr hserver⟩
  · rintro (hpatience | hserver) <;> omega

theorem Refuses.not_brings (h : d.Refuses) : ¬ d.Brings fs := by
  rintro ⟨status, body, rfl, haccepted, hbody⟩
  obtain ⟨_, _, heq, hcases⟩ := h
  obtain ⟨rfl, rfl⟩ := Delivery.response.inj heq
  rcases hcases with ⟨hrejected, -, -⟩ | ⟨-, hnone⟩
  · omega
  · exact hnone fs hbody

theorem Brings.unique {gs : Fields} (h : d.Brings fs) (h' : d.Brings gs) : fs = gs := by
  obtain ⟨status, body, rfl, -, hbody⟩ := h
  obtain ⟨_, _, heq, -, hbody'⟩ := h'
  obtain ⟨rfl, rfl⟩ := Delivery.response.inj heq
  simpa [hbody] using hbody'

end Delivery

section Regular

variable (endpoint) (hregular : d.Regular)
include hregular

theorem receive_eq_ok : receive endpoint d = .ok fs ↔ d.Brings fs := by
  cases received endpoint hregular with
  | fails m h heq => simpa [heq] using fun hbrings : d.Brings fs => hbrings.not_transient h
  | refuses m h heq => simpa [heq] using h.not_brings
  | brings gs h heq =>
    rw [heq, Except.ok.injEq]
    exact ⟨fun heq => heq ▸ h, h.unique⟩

theorem receive_refuses :
    (∃ m, receive endpoint d = .error (.engine (.misconfigured m))) ↔ d.Refuses := by
  cases received endpoint hregular with
  | fails m h heq =>
    have hnot : ¬ d.Refuses := fun hrefuses => hrefuses.not_transient h
    simpa [heq, EngineError.misconfigured] using hnot
  | refuses m h heq => exact ⟨fun _ => h, fun _ => ⟨m, heq⟩⟩
  | brings fs h heq => simpa [heq] using fun hrefuses : d.Refuses => hrefuses.not_brings h

theorem receive_fails :
    (∃ m, receive endpoint d = .error (.engine (.transient m "" status))) ↔
      d.IsTransient ∧ d.status = status := by
  cases received endpoint hregular with
  | fails m h heq => simp [heq, h]
  | refuses m h heq => simp [heq, h.not_transient, EngineError.misconfigured]
  | brings fs h heq => simp [heq, h.not_transient]

theorem transient_receive : Retry.Transient (receive endpoint d) ↔ d.IsTransient := by
  unfold Retry.Transient
  cases received endpoint hregular with
  | fails m h heq => simp [heq, h, Fault.isTransient]
  | refuses m h heq => simp [heq, h.not_transient, Fault.isTransient, EngineError.misconfigured]
  | brings fs h heq => simp [heq, h.not_transient]

theorem foreseen_of_receive {e : Fault} (h : receive endpoint d = .error e) : Foreseen e := by
  cases received endpoint hregular with
  | fails m _ heq => exact .inr ⟨m, d.status, Except.error.inj (h.symm.trans heq)⟩
  | refuses m _ heq => exact .inl ⟨m, Except.error.inj (h.symm.trans heq)⟩
  | brings fs _ heq => simp [heq] at h

end Regular

/-! ## Exchanges -/

namespace Client

/-- The request that comes of posting a payload to an endpoint. -/
def Makes (c : Client) (endpoint : String) (payload : Fields) (request : Sent) : Prop :=
  ∃ k path, c.connect = .ok k ∧ c.path endpoint = .ok path ∧
    request = ⟨Address.join k.baseUrl path, k.headers, payload⟩

end Client

variable {σ α : Type}

/-- What comes back for a request, made again and again. -/
def deliveries (transport : Sent → σ → Delivery × σ) (request : Sent) (s : σ) : Nat → Delivery :=
  Retry.nth (transport request) s

/-- The law of an exchange with at most `limit` requests, of which that of number `last`, counted
from zero, was the last one. -/
structure Settles (deliveries : Nat → Delivery) (endpoint : String) (request : Sent)
    (backoff : Value) (limit : Nat) (x : Exchange Fields) (last : Nat) : Prop where
  lt : last < limit
  /-- The request is made again only after a transient delivery. -/
  earlier : ∀ i < last, (deliveries i).IsTransient
  /-- It is made again after every transient delivery unless the limit is reached. -/
  stops : last + 1 < limit → ¬ (deliveries last).IsTransient
  /-- There is one pause between each request and the next, and none after the last one. -/
  acts : ∃ pauses, (List.range last).map (Retry.pause backoff) = pauses.map .ok ∧
    x.acts = Retry.spaced request pauses
  /-- The last delivery decides, with its own error if it leads to one. -/
  result : x.result = receive endpoint (deliveries last)
  brings : ∀ fs, x.result = .ok fs ↔ (deliveries last).Brings fs
  refuses : (∃ m, x.result = .error (.engine (.misconfigured m))) ↔ (deliveries last).Refuses
  fails : ∀ status, (∃ m, x.result = .error (.engine (.transient m "" status))) ↔
    (∀ i < limit, (deliveries i).IsTransient) ∧ (deliveries last).status = status
  foreseen : ∀ e, x.result = .error e → Foreseen e

variable {transport : Sent → σ → Delivery × σ} {c : Client} {payload : Fields} {request : Sent}
  {s : σ} {r : Int}

theorem attempts_of_int {limit : Value} (h : limit.number? = some (.int r)) :
    Retry.attempts limit = .ok (max 1 r).toNat := by
  have hlimit : Retry.attempts limit = .ok (max 1 r.toNat) := by
    unfold Retry.attempts
    rw [h]
  rw [hlimit]
  congr 1
  omega

theorem exists_pause {backoff : Value} (h : backoff.number?.isSome = true) (k : Nat) :
    ∃ p, Retry.pause backoff k = .ok p := by
  obtain ⟨n, hn⟩ := Option.isSome_iff_exists.mp h
  unfold Retry.pause
  rw [hn]
  cases n with
  | int n => exact ⟨_, rfl⟩
  | float x => exact ⟨_, rfl⟩

/-- Send a request once. -/
def Client.once (transport : Sent → σ → Delivery × σ) (endpoint : String) (request : Sent) (s : σ) :
    Except Fault Fields × σ :=
  (receive endpoint (transport request s).1, (transport request s).2)

theorem post_of_makes (transport : Sent → σ → Delivery × σ) (s : σ)
    (hlimit : c.config.retryAttempts.number? = some (.int r))
    (hmakes : c.Makes endpoint payload request) :
    ∃ c', c.post transport endpoint payload s =
      let (x, s') := Retry.persist (Client.once transport endpoint)
        (Retry.pause c.config.retryBackoff) request ((max 1 r).toNat - 1) 0 s
      (x, c', s') := by
  obtain ⟨k, path, hk, hpath, rfl⟩ := hmakes
  unfold Client.post
  rw [attempts_of_int hlimit]
  simp only [hk]
  have hpath' : Client.path { c with connection := some k } endpoint = .ok path := hpath
  simp only [hpath']
  exact ⟨_, rfl⟩

theorem post_of_not_makes (hlimit : c.config.retryAttempts.number? = some (.int r))
    (h : ∀ request, ¬ c.Makes endpoint payload request) :
    ∃ e c', c.post transport endpoint payload s = (.failed e, c', s) := by
  unfold Client.post
  rw [attempts_of_int hlimit]
  cases hk : c.connect with
  | error e => exact ⟨e, c, rfl⟩
  | ok k =>
    cases hpath : c.path endpoint with
    | error e =>
      have hpath' : Client.path { c with connection := some k } endpoint = .error e := hpath
      simp only [hpath']
      exact ⟨e, _, rfl⟩
    | ok path => exact absurd ⟨k, path, hk, hpath, rfl⟩ (h _)

theorem last_transient_iff {came : Nat → Delivery} {last limit : Nat} (hlt : last < limit)
    (hearlier : ∀ i < last, (came i).IsTransient)
    (hstops : last + 1 < limit → ¬ (came last).IsTransient) :
    (came last).IsTransient ↔ ∀ i < limit, (came i).IsTransient := by
  constructor
  · intro hlast i hi
    rcases Nat.lt_trichotomy i last with hbefore | rfl | hafter
    · exact hearlier i hbefore
    · exact hlast
    · exact absurd hlast (hstops (by omega))
  · exact fun hall => hall last hlt

theorem settles_post (hlimit : c.config.retryAttempts.number? = some (.int r))
    (hbackoff : c.config.retryBackoff.number?.isSome = true)
    (hmakes : c.Makes endpoint payload request)
    (hregular : ∀ i, (deliveries transport request s i).Regular) :
    ∃ last, Settles (deliveries transport request s) endpoint request c.config.retryBackoff
        (max 1 r).toNat (c.post transport endpoint payload s).1 last ∧
      (c.post transport endpoint payload s).2.2 = Retry.after (transport request) s (last + 1) := by
  obtain ⟨c', hpost⟩ := post_of_makes transport s hlimit hmakes
  obtain ⟨last, hle, hearlier, hstops, pauses, hpauses, heq⟩ :=
    Retry.persist_eq (Client.once transport endpoint) request (exists_pause hbackoff)
      ((max 1 r).toNat - 1) 0 s
  rw [hpost, heq]
  have hpositive : 0 < (max 1 r).toNat := by omega
  -- the errors of the client are transient where the deliveries are
  have htransient (i : Nat) :
      Retry.Transient (Retry.nth (Client.once transport endpoint request) s i) ↔
        (deliveries transport request s i).IsTransient :=
    transient_receive endpoint (hregular i)
  have hearlier' (i : Nat) (hi : i < last) : (deliveries transport request s i).IsTransient :=
    (htransient i).mp (hearlier i hi)
  have hstops' (h : last + 1 < (max 1 r).toNat) :
      ¬ (deliveries transport request s last).IsTransient :=
    mt (htransient last).mpr (hstops (by omega))
  refine ⟨last, ⟨by omega, hearlier', hstops', ⟨pauses, ?_, rfl⟩, rfl, ?_, ?_, ?_, ?_⟩, rfl⟩
  · simpa only [Nat.zero_add] using hpauses
  · exact fun fs => receive_eq_ok endpoint (hregular last)
  · exact receive_refuses endpoint (hregular last)
  · intro status
    refine (receive_fails endpoint (hregular last)).trans (and_congr_left fun _ => ?_)
    exact last_transient_iff (by omega) hearlier' hstops'
  · exact fun e => foreseen_of_receive endpoint (hregular last)

theorem foreseen_of_bind {x : Exchange Fields} {read : Fields → Except Fault α} {e : Fault}
    (hx : ∀ e, x.result = .error e → Foreseen e)
    (hread : ∀ fs e, read fs = .error e → ∃ m, e = .engine (.misconfigured m))
    (h : (x.bind read).result = .error e) : Foreseen e := by
  cases hresult : x.result with
  | error e' =>
    have hsame : (x.bind read).result = .error e' := congrArg (Except.bind · read) hresult
    exact Except.error.inj (hsame.symm.trans h) ▸ hx e' hresult
  | ok fs =>
    have hsame : (x.bind read).result = read fs := congrArg (Except.bind · read) hresult
    exact .inl (hread fs e (hsame.symm.trans h))

theorem misconfigured_of_replyText {body : Fields} {e : Fault}
    (h : Client.replyText body = .error e) : ∃ m, e = .engine (.misconfigured m) := by
  unfold Client.replyText at h
  split at h
  · cases h
  · exact ⟨_, (Except.error.inj h).symm⟩

theorem misconfigured_of_outcome {body : Fields} {e : Fault}
    (h : Client.outcome body = .error e) : ∃ m, e = .engine (.misconfigured m) := by
  unfold Client.outcome at h
  split at h
  · cases h
  · exact ⟨_, (Except.error.inj h).symm⟩

/-- With an integer for a limit and a number for the backoff, a request that can be made is sent up
to the first delivery that is not transient, or up to the limit, and the last delivery decides. The
transport is called no further time. The adapters for replies and actions raise no other errors than
the client. -/
theorem requests_made_until_settled (transport : Sent → σ → Delivery × σ) (c : Client) (s : σ)
    (r : Int) (hlimit : c.config.retryAttempts.number? = some (.int r))
    (hbackoff : c.config.retryBackoff.number?.isSome = true) :
    (∀ endpoint payload request, c.Makes endpoint payload request →
      (∀ i, (deliveries transport request s i).Regular) →
      ∃ last, Settles (deliveries transport request s) endpoint request c.config.retryBackoff
          (max 1 r).toNat (c.post transport endpoint payload s).1 last ∧
        (c.post transport endpoint payload s).2.2 =
          Retry.after (transport request) s (last + 1)) ∧
    (∀ endpoint payload, (∀ request, ¬ c.Makes endpoint payload request) →
      ∃ e c', c.post transport endpoint payload s = (.failed e, c', s)) ∧
    (∀ prompt request, c.Makes "ai" [("prompt", .str prompt)] request →
      (∀ i, (deliveries transport request s i).Regular) →
      ∀ e, (c.generate transport prompt s).1.result = .error e → Foreseen e) ∧
    (∀ tenant vars config request,
      c.Makes "actions" (Client.actionPayload tenant vars config) request →
      (∀ i, (deliveries transport request s i).Regular) →
      ∀ e, (c.execute transport tenant vars config s).1.result = .error e → Foreseen e) := by
  refine ⟨fun endpoint payload request hmakes hregular => ?_, fun endpoint payload hnone => ?_,
    fun prompt request hmakes hregular e he => ?_,
    fun tenant vars config request hmakes hregular e he => ?_⟩
  · exact settles_post hlimit hbackoff hmakes hregular
  · exact post_of_not_makes hlimit hnone
  · obtain ⟨last, hsettles, -⟩ := settles_post hlimit hbackoff hmakes hregular
    exact foreseen_of_bind hsettles.foreseen (fun _ _ => misconfigured_of_replyText) he
  · obtain ⟨last, hsettles, -⟩ := settles_post hlimit hbackoff hmakes hregular
    exact foreseen_of_bind hsettles.foreseen (fun _ _ => misconfigured_of_outcome) he

/-- A backend that is busy, then out of reach, and then answers every request. -/
def recovering (_ : Sent) : Nat → Delivery × Nat
  | 0 => (.response 503 (.text "busy"), 1)
  | 1 => (.unreachable "timeout", 2)
  | n + 2 => (.response 200 (.value (.object [("text", .str "Hello")])), n + 3)

theorem recovering_regular (request : Sent) (n : Nat) : (recovering request n).1.Regular := by
  intro e
  match n with
  | 0 | 1 | _ + 2 => exact Delivery.noConfusion

/-- The last attempt that the limit allows succeeds. -/
theorem settled_by_last_attempt :
    let c : Client := { connection := some { baseUrl := "http://backend.test" } }
    let payload : Fields := [("prompt", .str "Hi")]
    let request : Sent := ⟨Address.join "http://backend.test" "/api/chatbot/ai", [], payload⟩
    c.config.retryAttempts.number? = some (.int 3) ∧ c.config.retryBackoff.number?.isSome = true ∧
      c.Makes "ai" payload request ∧ (∀ i, (deliveries recovering request 0 i).Regular) ∧
      (∃ last, Settles (deliveries recovering request 0) "ai" request c.config.retryBackoff 3
        (c.post recovering "ai" payload 0).1 last) ∧
      (c.post recovering "ai" payload 0).1.result = .ok [("text", .str "Hello")] ∧
      (c.post recovering "ai" payload 0).2.2 = 3 := by
  intro c payload request
  have hmakes : c.Makes "ai" payload request := ⟨_, _, rfl, rfl, rfl⟩
  have hregular (i : Nat) : (deliveries recovering request 0 i).Regular := recovering_regular _ _
  obtain ⟨last, hsettles, -⟩ :=
    (requests_made_until_settled recovering c 0 3 rfl rfl).1 "ai" payload request hmakes hregular
  exact ⟨rfl, rfl, hmakes, hregular, ⟨last, hsettles⟩, rfl, rfl⟩

end ChatFlow.Backend
