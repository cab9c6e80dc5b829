import DcBench.DoRequest

namespace DcBench.GenuineAnswers

open DcBench.Lib DcBench.Message DcBench.ExactTransfer
open DcBench.DoRequest (Client Event Exchange Call Phase)

/-- The header `resp` answers the request with header `hdr`. -/
structure Matches (hdr resp : MessageHeader) : Prop where
  id : resp.id = hdr.id
  type : resp.type = response
  size : resp.payloadSize = hdr.payloadSize

/-- A nonzero round trip was measured with an answer to the request. -/
def Genuine (x : Exchange) : Prop := x.rtt ≠ 0 → ∃ resp payload, x.answer = some (resp, payload) ∧ Matches x.request resp

theorem genuine_returned_iff (hdr resp : MessageHeader) (payload body : List UInt8) (t : UInt64) :
    Genuine ⟨hdr, payload, some (resp, body), t - hdr.sendTimestampNs⟩ ↔ t = hdr.sendTimestampNs ∨ Matches hdr resp := by
  have hzero : t - hdr.sendTimestampNs = 0 ↔ t = hdr.sendTimestampNs := by
    constructor
    · intro h
      have hadd := UInt64.sub_add_cancel t hdr.sendTimestampNs
      rw [h, UInt64.zero_add] at hadd
      exact hadd.symm
    · intro h
      rw [h]
      exact UInt64.sub_self _
  simp only [Genuine, ne_eq, hzero]
  constructor
  · intro h
    by_cases ht : t = hdr.sendTimestampNs
    · exact .inl ht
    · obtain ⟨resp', payload', heq, hm⟩ := h ht
      cases heq
      exact .inr hm
  · rintro (ht | hm) hne
    · exact absurd ht hne
    · exact ⟨_, _, rfl, hm⟩

def arrived (es : List Event) : List UInt8 :=
  es.flatMap (fun ev => match ev with
    | .recv r => r.bytes
    | .call _ _ | .send _ | .now _ => [])

inductive Did (c : Client) : Event → Client → Prop
  | call (args : Call) (now : UInt64) (hp : c.phase = .idle) : Did c (.call args now) (c.call args now)
  | sends (hdr : MessageHeader) (r : SendResult) (c' : Client) (k k' : Nat)
      (hp : c.phase = .sendHeader hdr k ∨ c.phase = .sendPayload hdr k)
      (hp' : c'.phase = .sendHeader hdr k' ∨ c'.phase = .sendPayload hdr k' ∨ c'.phase = .recvHeader hdr 0)
      (hb : c'.respHdrBuf = c.respHdrBuf) (hx : c'.exchanges = c.exchanges) : Did c (.send r) c'
  | header (hdr : MessageHeader) (n : Nat) (bs : List UInt8) (c' : Client) (hp : c.phase = .recvHeader hdr n)
      (hn : n + bs.length < headerSize) (hp' : c'.phase = .recvHeader hdr (n + bs.length))
      (hb : c'.respHdrBuf = Buffer.write c.respHdrBuf n bs) (hx : c'.exchanges = c.exchanges) :
      Did c (.recv (.data bs)) c'
  | response (hdr : MessageHeader) (n : Nat) (bs : List UInt8) (c' : Client) (hp : c.phase = .recvHeader hdr n)
      (hle : bs.length ≤ headerSize - n) (hn : ¬ n + bs.length < headerSize)
      (hp' : c'.phase = .recvPayload hdr (deserializeHeader c'.respHdrBuf) 0 ∨
        c'.phase = .stamp hdr (deserializeHeader c'.respHdrBuf))
      (hb : c'.respHdrBuf = Buffer.write c.respHdrBuf n bs) (hx : c'.exchanges = c.exchanges) :
      Did c (.recv (.data bs)) c'
  | payload (hdr resp : MessageHeader) (n k : Nat) (bs : List UInt8) (c' : Client)
      (hp : c.phase = .recvPayload hdr resp n)
      (hp' : c'.phase = .recvPayload hdr resp k ∨ c'.phase = .stamp hdr resp)
      (hb : c'.respHdrBuf = c.respHdrBuf) (hx : c'.exchanges = c.exchanges) : Did c (.recv (.data bs)) c'
  | fails (hdr : MessageHeader) (ev : Event) (c' : Client) (payload : List UInt8) (hp : c.phase.header = some hdr)
      (hs : ∀ resp, c.phase ≠ .stamp hdr resp) (hev : ∀ t, ev ≠ .now t) (hp' : c'.phase = .idle)
      (hb : c'.respHdrBuf = c.respHdrBuf) (hx : c'.exchanges = c.exchanges ++ [⟨hdr, payload, none, 0⟩]) : Did c ev c'
  | returns (hdr resp : MessageHeader) (t : UInt64) (c' : Client) (payload answer : List UInt8)
      (hp : c.phase = .stamp hdr resp) (hp' : c'.phase = .idle) (hb : c'.respHdrBuf = c.respHdrBuf)
      (hx : c'.exchanges = c.exchanges ++ [⟨hdr, payload, some (resp, answer), t - hdr.sendTimestampNs⟩]) :
      Did c (.now t) c'

variable {c c' : Client} {ev : Event}

theorem did_sendHeader {hdr : MessageHeader} {n : Nat} (hp : c.phase = .sendHeader hdr n) (r : SendResult) :
    Did c (.send r) (c.sendHeader hdr n r) := by
  have hhdr : c.phase.header = some hdr := by rw [hp, Phase.header]
  cases r with
  | error => exact .fails hdr _ _ _ hhdr (by simp [hp]) (by simp) rfl rfl rfl
  | sent m =>
    simp only [Client.sendHeader, sendExact]
    by_cases hm : n + m < headerSize
    · simp only [if_pos hm]
      exact .sends hdr _ _ n (n + m) (.inl hp) (.inl rfl) rfl rfl
    · simp only [if_neg hm]
      split
      · exact .sends hdr _ _ n 0 (.inl hp) (.inr (.inl rfl)) rfl rfl
      · exact .sends hdr _ _ n 0 (.inl hp) (.inr (.inr rfl)) rfl rfl

theorem did_sendPayload {hdr : MessageHeader} {n : Nat} (hp : c.phase = .sendPayload hdr n) (r : SendResult) :
    Did c (.send r) (c.sendPayload hdr n r) := by
  have hhdr : c.phase.header = some hdr := by rw [hp, Phase.header]
  cases r with
  | error => exact .fails hdr _ _ _ hhdr (by simp [hp]) (by simp) rfl rfl rfl
  | sent m =>
    simp only [Client.sendPayload, sendExact]
    by_cases hm : n + m < hdr.payloadSize.toNat
    · simp only [if_pos hm]
      exact .sends hdr _ _ n (n + m) (.inr hp) (.inr (.inl rfl)) rfl rfl
    · simp only [if_neg hm]
      exact .sends hdr _ _ n 0 (.inr hp) (.inr (.inr rfl)) rfl rfl

theorem did_recvHeader {hdr : MessageHeader} {n : Nat} (hp : c.phase = .recvHeader hdr n) {r : RecvResult}
    (hr : r.fits (headerSize - n) = true) : Did c (.recv r) (c.recvHeader hdr n r) := by
  have hhdr : c.phase.header = some hdr := by rw [hp, Phase.header]
  cases r with
  | eof | error => exact .fails hdr _ _ _ hhdr (by simp [hp]) (by simp) rfl rfl rfl
  | data bs =>
    have hle : bs.length ≤ headerSize - n := by
      simp only [RecvResult.fits, Bool.and_eq_true, decide_eq_true_eq] at hr
      exact hr.2
    simp only [Client.recvHeader, recvExact]
    by_cases hm : n + bs.length < headerSize
    · simp only [if_pos hm]
      exact .header hdr n bs _ hp hm rfl rfl rfl
    · simp only [if_neg hm, Client.onResponse]
      split
      · exact .response hdr n bs _ hp hle hm (.inl rfl) rfl rfl
      · exact .response hdr n bs _ hp hle hm (.inr rfl) rfl rfl

theorem did_recvPayload {hdr resp : MessageHeader} {n : Nat} (hp : c.phase = .recvPayload hdr resp n)
    (r : RecvResult) : Did c (.recv r) (c.recvPayload hdr resp n r) := by
  have hhdr : c.phase.header = some hdr := by rw [hp, Phase.header]
  cases r with
  | eof | error => exact .fails hdr _ _ _ hhdr (by simp [hp]) (by simp) rfl rfl rfl
  | data bs =>
    simp only [Client.recvPayload, recvExact]
    by_cases hm : n + bs.length < resp.payloadSize.toNat
    · simp only [if_pos hm]
      exact .payload hdr resp n (n + bs.length) bs _ hp (.inl rfl) rfl rfl
    · simp only [if_neg hm]
      exact .payload hdr resp n 0 bs _ hp (.inr rfl) rfl rfl

theorem did_of_step (h : DoRequest.step c ev = some c') : Did c ev c' := by
  cases ev with
  | call args now =>
    cases hp : c.phase <;> simp [DoRequest.step, hp] at h
    subst h
    exact .call args now hp
  | send r =>
    cases hp : c.phase with
    | sendHeader hdr n =>
      simp only [DoRequest.step, hp, Option.ite_none_right_eq_some, Option.some.injEq] at h
      exact h.2 ▸ did_sendHeader hp r
    | sendPayload hdr n =>
      simp only [DoRequest.step, hp, Option.ite_none_right_eq_some, Option.some.injEq] at h
      exact h.2 ▸ did_sendPayload hp r
    | idle | recvHeader hdr n | recvPayload hdr resp n | stamp hdr resp => simp [DoRequest.step, hp] at h
  | recv r =>
    cases hp : c.phase with
    | recvHeader hdr n =>
      simp only [DoRequest.step, hp, Option.ite_none_right_eq_some, Option.some.injEq] at h
      exact h.2 ▸ did_recvHeader hp h.1
    | recvPayload hdr resp n =>
      simp only [DoRequest.step, hp, Option.ite_none_right_eq_some, Option.some.injEq] at h
      exact h.2 ▸ did_recvPayload hp r
    | idle | sendHeader hdr n | sendPayload hdr n | stamp hdr resp => simp [DoRequest.step, hp] at h
  | now t =>
    cases hp : c.phase with
    | stamp hdr resp =>
      simp only [DoRequest.step, hp, Option.some.injEq] at h
      subst h
      exact .returns hdr resp t _ _ _ hp rfl rfl rfl
    | idle | sendHeader hdr n | sendPayload hdr n | recvHeader hdr n | recvPayload hdr resp n =>
      simp [DoRequest.step, hp] at h

theorem arrived_concat (es : List Event) (ev : Event) : arrived (es ++ [ev]) = arrived es ++ arrived [ev] :=
  List.flatMap_append

/-- What the call with header `hdr` has in its hands after the bytes `got`. -/
def HasRead (hdr : MessageHeader) (got : List UInt8) (c : Client) : Prop :=
  match c.phase with
  | .idle => False
  | .sendHeader hdr' _ | .sendPayload hdr' _ => hdr' = hdr ∧ got = []
  | .recvHeader hdr' n => hdr' = hdr ∧ n < headerSize ∧ c.respHdrBuf.take n = got
  | .recvPayload hdr' resp _ | .stamp hdr' resp =>
    hdr' = hdr ∧ c.respHdrBuf <+: got ∧ resp = deserializeHeader c.respHdrBuf

/-- How the call has ended: it failed before its second clock reading, or it made
the reading `t` after a header `head` and a body. -/
def Ended (hdr : MessageHeader) (es : List Event) (x : Exchange) : Prop :=
  (x.rtt = 0 ∧ ∀ t, .now t ∉ es) ∨
    ∃ t head body, head.length = headerSize ∧ head <+: arrived es ∧ x.answer = some (deserializeHeader head, body) ∧
      x.rtt = t - hdr.sendTimestampNs ∧ ∀ t', .now t' ∈ es ↔ t' = t

/-- The events `es` since the start of the call with header `hdr` have led to `c`. -/
structure InCall (hdr : MessageHeader) (before : List Exchange) (es : List Event) (c : Client) : Prop where
  buf : c.respHdrBuf.length = headerSize
  state : (c.exchanges = before ∧ HasRead hdr (arrived es) c ∧ ∀ t, .now t ∉ es) ∨
    (c.phase = .idle ∧ ∃ x, c.exchanges = before ++ [x] ∧ x.request = hdr ∧ Ended hdr es x)

variable {hdr : MessageHeader} {before : List Exchange} {es : List Event}

theorem HasRead.header {got : List UInt8} (h : HasRead hdr got c) : c.phase.header = some hdr := by
  rw [HasRead] at h
  cases hp : c.phase with
  | idle =>
    rw [hp] at h
    exact h.elim
  | sendHeader _ _ | sendPayload _ _ | recvHeader _ _ | recvPayload _ _ _ | stamp _ _ =>
    rw [hp] at h
    exact congrArg some h.1

theorem inCall_did (hbuf : c.respHdrBuf.length = headerSize) (hx : c.exchanges = before)
    (hread : HasRead hdr (arrived es) c) (hnow : ∀ t, .now t ∉ es) (hcall : ∀ args t, ev ≠ .call args t)
    (h : Did c ev c') : InCall hdr before (es ++ [ev]) c' := by
  cases h with
  | call args now hp => exact absurd rfl (hcall args now)
  | sends hdr' r _ k k' hp hp' hb hx' =>
    obtain ⟨rfl, hgot⟩ : hdr' = hdr ∧ arrived es = [] := by
      obtain hp | hp := hp <;> simpa only [HasRead, hp] using hread
    have harr : arrived (es ++ [.send r]) = [] := by rw [arrived_concat, hgot]; rfl
    refine ⟨hb ▸ hbuf, .inl ⟨hx'.trans hx, ?_, by simpa using hnow⟩⟩
    obtain hp' | hp' | hp' := hp' <;> simp only [HasRead, hp', harr]
    · trivial
    · trivial
    · exact ⟨trivial, by decide, List.take_zero⟩
  | header hdr' n bs _ hp hn hp' hb hx' =>
    simp only [HasRead, hp] at hread
    obtain ⟨rfl, hlt, htake⟩ := hread
    refine ⟨?_, .inl ⟨hx'.trans hx, ?_, by simpa using hnow⟩⟩
    · rw [hb, Buffer.length_write _ _ _ (by omega), hbuf]
    · simp only [HasRead, hp']
      refine ⟨trivial, hn, ?_⟩
      rw [hb, Buffer.take_write _ _ _ (by omega), htake, arrived_concat]
      simp [arrived, RecvResult.bytes]
  | response hdr' n bs _ hp hle hn hp' hb hx' =>
    simp only [HasRead, hp] at hread
    obtain ⟨rfl, hlt, htake⟩ := hread
    have hlen : c'.respHdrBuf.length = headerSize := by rw [hb, Buffer.length_write _ _ _ (by omega), hbuf]
    -- the header read has just filled the buffer
    have hfull : c'.respHdrBuf = arrived (es ++ [.recv (.data bs)]) := by
      have hall := Buffer.take_write c.respHdrBuf n bs (by omega)
      rw [← hb, List.take_of_length_le (by omega), htake] at hall
      rw [hall, arrived_concat]
      simp [arrived, RecvResult.bytes]
    refine ⟨hlen, .inl ⟨hx'.trans hx, ?_, by simpa using hnow⟩⟩
    obtain hp' | hp' := hp' <;> simp only [HasRead, hp'] <;> exact ⟨trivial, hfull ▸ List.prefix_refl _, trivial⟩
  | payload hdr' resp n k bs _ hp hp' hb hx' =>
    simp only [HasRead, hp] at hread
    obtain ⟨rfl, hpre, hresp⟩ := hread
    have hpre' : c'.respHdrBuf <+: arrived (es ++ [.recv (.data bs)]) := by
      rw [hb, arrived_concat]
      exact hpre.trans (List.prefix_append _ _)
    refine ⟨hb ▸ hbuf, .inl ⟨hx'.trans hx, ?_, by simpa using hnow⟩⟩
    obtain hp' | hp' := hp' <;> simp only [HasRead, hp'] <;> exact ⟨trivial, hpre', hb ▸ hresp⟩
  | fails hdr' _ _ payload hp _ hev hp' hb hx' =>
    obtain rfl : hdr' = hdr := Option.some.inj (hp.symm.trans hread.header)
    refine ⟨hb ▸ hbuf, .inr ⟨hp', _, hx ▸ hx', rfl, .inl ⟨rfl, fun t ht => ?_⟩⟩⟩
    obtain ht | ht := List.mem_append.mp ht
    · exact hnow t ht
    · exact hev t (List.mem_singleton.mp ht).symm
  | returns hdr' resp t _ payload answer hp hp' hb hx' =>
    simp only [HasRead, hp] at hread
    obtain ⟨rfl, hpre, rfl⟩ := hread
    refine ⟨hb ▸ hbuf, .inr ⟨hp', _, hx ▸ hx', rfl, .inr ⟨t, c.respHdrBuf, answer, hbuf, ?_, rfl, rfl, fun t' => ?_⟩⟩⟩
    · rw [arrived_concat]
      exact hpre.trans (List.prefix_append _ _)
    · simp [hnow t']

theorem inCall_run {args : Call} {now : UInt64} (hbuf : c.respHdrBuf.length = headerSize)
    (hcall : ∀ args t, .call args t ∉ es)
    (hrun : Transition.run DoRequest.step (c.call args now) es = some c') :
    InCall (args.header now) c.exchanges es c' := by
  revert hcall
  refine Transition.run_induction (motive := fun es c' => (∀ args t, .call args t ∉ es) →
    InCall (args.header now) c.exchanges es c') ?_ ?_ hrun
  · intro _
    exact ⟨hbuf, .inl ⟨rfl, ⟨rfl, rfl⟩, by simp⟩⟩
  · intro es ev d d' _ ih hstep hcall
    have hin := ih (fun args t ht => hcall args t (List.mem_append_left _ ht))
    have hev : ∀ args t, ev ≠ .call args t := by
      rintro args t rfl
      exact hcall args t (by simp)
    have hdid := did_of_step hstep
    obtain ⟨hx, hread, hnow⟩ | ⟨hidle, -⟩ := hin.state
    · exact inCall_did hin.buf hx hread hnow hev hdid
    · -- a call that is over takes no further event
      cases ev with
      | call args t => exact absurd rfl (hev args t)
      | send r | recv r | now t => simp [DoRequest.step, hidle] at hstep

/-- A finished call is genuine exactly when it did not get to its second clock
reading, or the clock had not moved, or the first bytes that arrived for it are
a header that answers it. -/
theorem genuine_call_iff {args : Call} {now : UInt64} {stream : List UInt8} (hbuf : c.respHdrBuf.length = headerSize)
    (hcall : ∀ args t, .call args t ∉ es)
    (hrun : Transition.run DoRequest.step (c.call args now) es = some c') (hidle : c'.phase = .idle)
    (hstream : arrived es <+: stream) :
    ∃ x, c'.exchanges = c.exchanges ++ [x] ∧ x.request = args.header now ∧
      (Genuine x ↔ ∀ t, .now t ∈ es → t = now ∨ Matches (args.header now) (deserializeHeader stream)) := by
  obtain ⟨-, ⟨-, hread, -⟩ | ⟨-, x, hx, hreq, hend⟩⟩ := inCall_run hbuf hcall hrun
  · simp only [HasRead, hidle] at hread
  refine ⟨x, hx, hreq, ?_⟩
  obtain ⟨hrtt, hnow⟩ | ⟨t, head, body, hlen, hpre, hans, hrtt, hnow⟩ := hend
  · exact iff_of_true (fun hne => absurd hrtt hne) (fun t ht => absurd ht (hnow t))
  · have hhead : deserializeHeader stream = deserializeHeader head := by
      obtain ⟨rest, rfl⟩ := hpre.trans hstream
      exact deserialize_append _ _ hlen
    have hiff : Genuine x ↔ t = (args.header now).sendTimestampNs ∨ Matches (args.header now) (deserializeHeader head) := by
      obtain ⟨request, payload, answer, rtt⟩ := x
      subst hreq hans hrtt
      exact genuine_returned_iff _ _ _ _ _
    simp only [hnow, forall_eq, hhead]
    exact hiff

/-- The header in the phase is the one in the buffer. -/
def RespRead (c : Client) : Prop :=
  match c.phase with
  | .recvPayload _ resp _ | .stamp _ resp => resp = deserializeHeader c.respHdrBuf
  | _ => True

/-- Should the call now make its second clock reading, then the clock has not
moved since the first one, or `resp_hdr_buf` holds a header that answers it. -/
def Answers (c : Client) (clock : UInt64) : Prop :=
  ∀ hdr resp, c.phase = .stamp hdr resp → clock = hdr.sendTimestampNs ∨ Matches hdr (deserializeHeader c.respHdrBuf)

def AllGenuine (c : Client) : Prop := ∀ x ∈ c.exchanges, Genuine x

theorem respRead_did (h : RespRead c) (hd : Did c ev c') : RespRead c' := by
  cases hd with
  | call args now hp => trivial
  | sends hdr r _ k k' hp hp' hb hx =>
    obtain hp' | hp' | hp' := hp' <;> simp only [RespRead, hp']
  | header hdr n bs _ hp hn hp' hb hx => simp only [RespRead, hp']
  | response hdr n bs _ hp hle hn hp' hb hx =>
    obtain hp' | hp' := hp' <;> simp only [RespRead, hp']
  | payload hdr resp n k bs _ hp hp' hb hx =>
    simp only [RespRead, hp] at h
    obtain hp' | hp' := hp' <;> simp only [RespRead, hp', hb, h]
  | fails hdr _ _ payload hp hs hev hp' hb hx => simp only [RespRead, hp']
  | returns hdr resp t _ payload answer hp hp' hb hx => simp only [RespRead, hp']

theorem idle_of_now {t : UInt64} (hd : Did c (.now t) c') : c'.phase = .idle := by
  cases hd with
  | fails hdr _ _ payload hp hs hev hp' hb hx => exact hp'
  | returns hdr resp t _ payload answer hp hp' hb hx => exact hp'

theorem allGenuine_concat {x : Exchange} (hx : c'.exchanges = c.exchanges ++ [x]) :
    AllGenuine c' ↔ AllGenuine c ∧ Genuine x := by
  rw [AllGenuine, hx, List.forall_mem_append, List.forall_mem_singleton]
  rfl

/-- A step keeps all calls genuine exactly when it is not a clock reading behind a
header that answers something else. -/
theorem allGenuine_did {clock : UInt64} (h : RespRead c) (hnow : ∀ t, ev = .now t → t = clock) (hd : Did c ev c') :
    AllGenuine c' ↔ AllGenuine c ∧ Answers c clock := by
  have hsame (hx : c'.exchanges = c.exchanges) (hp : ∀ hdr resp, c.phase ≠ .stamp hdr resp) :
      AllGenuine c' ↔ AllGenuine c ∧ Answers c clock := by
    have hans : Answers c clock := fun hdr resp hs => absurd hs (hp hdr resp)
    rw [AllGenuine, hx, and_iff_left hans]
    rfl
  cases hd with
  | call args now hp => exact hsame rfl (by simp [hp])
  | sends hdr r _ k k' hp hp' hb hx => exact hsame hx (by obtain hp | hp := hp <;> simp [hp])
  | header hdr n bs _ hp hn hp' hb hx => exact hsame hx (by simp [hp])
  | response hdr n bs _ hp hle hn hp' hb hx => exact hsame hx (by simp [hp])
  | payload hdr resp n k bs _ hp hp' hb hx => exact hsame hx (by simp [hp])
  | fails hdr _ _ payload hp hs hev hp' hb hx =>
    have hans : Answers c clock := by
      intro hdr' resp hst
      rw [hst] at hp
      obtain rfl : hdr' = hdr := Option.some.inj hp
      exact absurd hst (hs resp)
    have hfail : Genuine ⟨hdr, payload, none, 0⟩ := fun hne => absurd rfl hne
    rw [allGenuine_concat hx, and_iff_left hans, and_iff_left hfail]
  | returns hdr resp t _ payload answer hp hp' hb hx =>
    obtain rfl := hnow t rfl
    simp only [RespRead, hp] at h
    rw [allGenuine_concat hx, genuine_returned_iff, h]
    simp only [Answers, hp, Phase.stamp.injEq, and_imp]
    constructor
    · rintro ⟨hall, hor⟩
      refine ⟨hall, ?_⟩
      rintro hdr' resp' rfl -
      exact hor
    · rintro ⟨hall, hor⟩
      exact ⟨hall, hor hdr resp rfl rfl⟩

end DcBench.GenuineAnswers
