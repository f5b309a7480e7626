import Mathlib.Data.List.Induction
import OrderDepot.Proofs.Delivery.Bench
import OrderDepot.Proofs.Text.Base64

/-!
# A log is delivered at least once, and what it leads to converges

Messages are handled at a cursor that a restart sets back to the committed position. A commit may be lost, so
a restart may deliver a part of the log again, and the store then falls back to earlier orders. The invariant
says of every identifier that its order is the last one before the cursor or one that is still to come. At the
end of the log nothing is to come, and the store and the keys of the dead letters depend on the log alone.
-/

namespace OrderDepot.Delivery.Bench

def latest (date : Time.Instant) (payloads : List (List UInt8)) (uid : OrderUid) : Option Order :=
  ((payloads.filterMap (accepted? date)).filter (·.uid = uid)).getLast?

def recordKey (offset : Nat) : List UInt8 := Text.bytes s!"orders:0:{offset}"

def SavedAt (b : Bench) (actions : List Action) (offset : Nat) (order : Order) : Prop :=
  ∃ before after handled, actions = before ++ .step :: after ∧ (b.run before).log.cursor = offset ∧
    (b.run before).step.1 = some handled ∧ handled.outcome = .stored ∧
    (b.run before).step.2.store.saves = (b.run before).store.saves + 1 ∧
    (b.run before).step.2.store.orders.find? order.uid = some order

/-- A record with the key of an offset was published. Its envelope holds the payload, in base64 that reads
back as exactly these bytes. -/
def SetAsideAt (b : Bench) (offset : Nat) (payload : List UInt8) : Prop :=
  ∃ record ∈ b.publisher.records, record.key = recordKey offset ∧
    ∃ envelope : Envelope, record.payload = Text.bytes envelope.encode ∧ envelope.payload = payload ∧
      ∃ members text, envelope.toJson = .object members ∧ members.lookup "payload" = some (.text text) ∧
        Text.Base64.decode (Text.bytes text) = .ok payload

theorem latest_concat (date : Time.Instant) (ps : List (List UInt8)) (p : List UInt8) (uid : OrderUid) :
    latest date (ps ++ [p]) uid =
      match accepted? date p with
      | some o => if o.uid = uid then some o else latest date ps uid
      | none => latest date ps uid := by
  cases ho : accepted? date p with
  | none => simp [latest, ho]
  | some o => by_cases hu : o.uid = uid <;> simp [latest, ho, hu]

theorem latest_take (date : Time.Instant) (ps : List (List UInt8)) (uid : OrderUid) {n c : Nat} (h : n ≤ c) :
    latest date (ps.take c) uid = latest date (ps.take n) uid ∨
      ∃ i payload o, n ≤ i ∧ ps[i]? = some payload ∧ accepted? date payload = some o ∧ o.uid = uid ∧
        latest date (ps.take c) uid = some o := by
  induction c, h using Nat.le_induction with
  | base => exact Or.inl rfl
  | succ c hc ih =>
    cases hp : ps[c]? with
    | none =>
      have hlen : ps.length ≤ c := List.getElem?_eq_none_iff.1 hp
      have htake : ps.take (c + 1) = ps.take c := by
        rw [List.take_of_length_le hlen, List.take_of_length_le (Nat.le_succ_of_le hlen)]
      rw [htake]
      exact ih
    | some p =>
      have htake : ps.take (c + 1) = ps.take c ++ [p] := by
        rw [List.take_add_one, hp]
        rfl
      rw [htake, latest_concat]
      cases ho : accepted? date p with
      | none => exact ih
      | some o =>
        by_cases hu : o.uid = uid
        · exact Or.inr ⟨c, p, o, hc, hp, ho, hu, by simp [hu]⟩
        · simpa [hu] using ih

/-- An identifier has the last order before the cursor, or one that is still to come. -/
def Settles (b : Bench) (uid : OrderUid) : Prop :=
  b.store.orders.find? uid = latest b.date (b.payloads.take b.log.cursor) uid ∨
    ∃ i payload o, b.log.cursor ≤ i ∧ b.payloads[i]? = some payload ∧ accepted? b.date payload = some o ∧
      o.uid = uid ∧ b.store.orders.find? uid = some o

/-- What has become of a message that is finished with. -/
def Delivered (b₀ : Bench) (actions : List Action) (b : Bench) (offset : Nat) (payload : List UInt8) : Prop :=
  match accepted? b.date payload with
  | some order => SavedAt b₀ actions offset order
  | none => SetAsideAt b offset payload

structure Inv (b₀ : Bench) (actions : List Action) (b : Bench) : Prop where
  deadLetters : b.pipeline.deadLetters = true
  date : b.date = b₀.date
  log : b.log.Sound
  delivered : ∀ i payload, i < b.log.cursor → b.payloads[i]? = some payload → Delivered b₀ actions b i payload
  keys : ∀ r ∈ b.publisher.records, ∃ i payload, b.payloads[i]? = some payload ∧
    accepted? b.date payload = none ∧ r.key = recordKey i
  settles : ∀ uid, b.Settles uid

theorem savedAt_concat {b₀ : Bench} {actions : List Action} {offset : Nat} {o : Order}
    (h : SavedAt b₀ actions offset o) (a : Action) : SavedAt b₀ (actions ++ [a]) offset o := by
  obtain ⟨before, after, handled, rfl, hrest⟩ := h
  exact ⟨before, after ++ [a], handled, by simp, hrest⟩

theorem delivered_concat {b₀ b b' : Bench} {actions : List Action} {offset : Nat} {payload : List UInt8}
    (h : Delivered b₀ actions b offset payload) (a : Action) (hdate : b'.date = b.date)
    (hrecords : ∀ r ∈ b.publisher.records, r ∈ b'.publisher.records) :
    Delivered b₀ (actions ++ [a]) b' offset payload := by
  unfold Delivered at h ⊢
  rw [hdate]
  split at h
  · exact savedAt_concat h a
  · obtain ⟨r, hr, hrest⟩ := h
    exact ⟨r, hrecords r hr, hrest⟩

theorem inv_back {b₀ b b' : Bench} {actions : List Action} (h : Inv b₀ actions b) (a : Action)
    (hpipeline : b'.pipeline = b.pipeline) (hdate : b'.date = b.date) (hlog : b'.log.Sound)
    (hmessages : b'.log.messages = b.log.messages) (hcursor : b'.log.cursor ≤ b.log.cursor)
    (horders : b'.store.orders = b.store.orders) (hrecords : b'.publisher.records = b.publisher.records) :
    Inv b₀ (actions ++ [a]) b' := by
  have hpayloads : b'.payloads = b.payloads := congrArg (List.map Message.payload) hmessages
  refine ⟨by rw [hpipeline, h.deadLetters], by rw [hdate, h.date], hlog, ?_, ?_, ?_⟩
  · intro i payload hi hp
    rw [hpayloads] at hp
    exact delivered_concat (h.delivered i payload (by omega) hp) a hdate (by rw [hrecords]; exact fun _ => id)
  · rw [hrecords, hpayloads, hdate]
    exact h.keys
  · intro uid
    unfold Settles
    rw [hpayloads, hdate, horders]
    rcases h.settles uid with hlast | ⟨i, payload, o, hi, hrest⟩
    · rcases latest_take b.date b.payloads uid hcursor with heq | ⟨i, payload, o, hi, hp, ho, hu, hl⟩
      · exact Or.inl (hlast.trans heq)
      · exact Or.inr ⟨i, payload, o, hi, hp, ho, hu, hlast.trans hl⟩
    · exact Or.inr ⟨i, payload, o, by omega, hrest⟩

theorem deadLetter_key {offset : Nat} (h : offset < Log.capacity) (payload : List UInt8) (reason : Reason)
    (attempt : UInt32) (now : Time.Instant) :
    (deadLetter (Log.messageAt offset payload) reason attempt now).key = recordKey offset := by
  have hoffset := Log.messageAt_offset h payload
  have hstart : toString Log.topic ++ toString ":" ++ toString (0 : Int32).toInt ++ toString ":" =
      "orders:0:" := by
    decide
  simp only [deadLetter, recordKey, Position.text, Message.position, hoffset]
  exact congrArg (fun s => Text.bytes (s ++ toString offset)) hstart

theorem deadLetter_setAside {b : Bench} {offset : Nat} (h : offset < Log.capacity) {payload : List UInt8}
    {reason : Reason} {attempt : UInt32} {now : Time.Instant}
    (hmem : deadLetter (Log.messageAt offset payload) reason attempt now ∈ b.publisher.records) :
    SetAsideAt b offset payload := by
  let envelope := Envelope.capture (Log.messageAt offset payload) reason attempt now
  have hpayload : (deadLetter (Log.messageAt offset payload) reason attempt now).payload =
      Text.bytes envelope.encode := by
    simp only [deadLetter, envelope]
  refine ⟨_, hmem, deadLetter_key h payload reason attempt now, envelope, hpayload, rfl, ?_⟩
  refine ⟨_, Text.Base64.encode payload, rfl, ?_, Text.Base64.decode_encode payload⟩
  simp [List.lookup_cons, envelope, Envelope.capture, Log.messageAt]

theorem inv_advance {b₀ b b' : Bench} {actions : List Action} (h : Inv b₀ actions b) (a : Action)
    {payload : List UInt8} (hp : b.payloads[b.log.cursor]? = some payload)
    (hpipeline : b'.pipeline = b.pipeline) (hdate : b'.date = b.date) (hlog : b'.log.Sound)
    (hmessages : b'.log.messages = b.log.messages) (hcursor : b'.log.cursor = b.log.cursor + 1)
    (hdelivered : Delivered b₀ (actions ++ [a]) b' b.log.cursor payload)
    (hrecords : ∀ r ∈ b.publisher.records, r ∈ b'.publisher.records)
    (hkeys : ∀ r ∈ b'.publisher.records, r ∈ b.publisher.records ∨
      accepted? b.date payload = none ∧ r.key = recordKey b.log.cursor)
    (hfind : ∀ uid, b'.store.orders.find? uid =
      match accepted? b.date payload with
      | some o => if o.uid = uid then some o else b.store.orders.find? uid
      | none => b.store.orders.find? uid) :
    Inv b₀ (actions ++ [a]) b' := by
  have hpayloads : b'.payloads = b.payloads := congrArg (List.map Message.payload) hmessages
  refine ⟨by rw [hpipeline, h.deadLetters], by rw [hdate, h.date], hlog, ?_, ?_, ?_⟩
  · intro i q hi hq
    rw [hpayloads] at hq
    rcases Nat.lt_or_eq_of_le (Nat.le_of_lt_succ (hcursor ▸ hi)) with hlt | rfl
    · exact delivered_concat (h.delivered i q hlt hq) a hdate hrecords
    · obtain rfl : payload = q := Option.some.inj (hp.symm.trans hq)
      exact hdelivered
  · intro r hr
    rw [hpayloads, hdate]
    rcases hkeys r hr with hr | ⟨ho, hkey⟩
    · exact h.keys r hr
    · exact ⟨b.log.cursor, payload, hp, ho, hkey⟩
  · intro uid
    have htake : b.payloads.take (b.log.cursor + 1) = b.payloads.take b.log.cursor ++ [payload] := by
      rw [List.take_add_one, hp]
      rfl
    unfold Settles
    rw [hpayloads, hdate, hcursor, htake, latest_concat, hfind]
    rcases h.settles uid with hlast | ⟨i, q, o, hi, hq, ho, hu, hfound⟩
    · rw [hlast]
      exact Or.inl rfl
    · rcases Nat.lt_or_eq_of_le hi with hlt | rfl
      · split
        · split
          · exact Or.inl rfl
          · exact Or.inr ⟨i, q, o, hlt, hq, ho, hu, hfound⟩
        · exact Or.inr ⟨i, q, o, hlt, hq, ho, hu, hfound⟩
      · -- the order that was to come is the one at the cursor
        obtain rfl : payload = q := Option.some.inj (hp.symm.trans hq)
        simp only [ho, if_pos hu, true_or]

/-- A message that is not finished with leaves all at the cursor as it was; one that is moves the cursor on. -/
theorem inv_step {b₀ : Bench} {actions : List Action} (h : Inv b₀ actions (b₀.run actions)) :
    Inv b₀ (actions ++ [.step]) (b₀.run actions).step.2 := by
  generalize hb : b₀.run actions = b at h
  obtain ⟨hpipeline, hdate, hlog, hmessages, hcases⟩ := step_cases h.log h.deadLetters
  rcases hcases with ⟨hcursor, horders, hrecords⟩ |
      ⟨payload, o, hp, ho, hcursor, hrecords, horders, hsaves, handled, hhandled, houtcome⟩ |
      ⟨payload, reason, attempt, hp, ho, hcursor, horders, hrecords⟩
  · exact inv_back h _ hpipeline hdate hlog hmessages hcursor.le horders hrecords
  · have hfind : ∀ uid, b.step.2.store.orders.find? uid =
        if o.uid = uid then some o else b.store.orders.find? uid := by
      intro uid
      simp only [horders, Keyed.find?_put, eq_comm]
    have hsaved : SavedAt b₀ (actions ++ [.step]) b.log.cursor o :=
      ⟨actions, [], handled, rfl, by rw [hb], by rw [hb]; exact hhandled, houtcome, by rw [hb]; exact hsaves,
        by rw [hb, hfind, if_pos rfl]⟩
    refine inv_advance h _ hp hpipeline hdate hlog hmessages hcursor ?_ ?_ ?_ ?_
    · rw [Delivered, hdate, ho]
      exact hsaved
    · rw [hrecords]
      exact fun _ => id
    · rw [hrecords]
      exact fun _ => Or.inl
    · rw [ho]
      exact hfind
  · have hroom : b.log.cursor < Log.capacity := by
      have hlt := (List.getElem?_eq_some_iff.1 hp).1
      have hle := h.log.length_le
      simp only [payloads, List.length_map] at hlt
      omega
    have hmem : deadLetter (Log.messageAt b.log.cursor payload) reason attempt b.date ∈
        b.step.2.publisher.records := by
      rw [hrecords]
      exact List.mem_append_right _ (List.mem_singleton_self _)
    refine inv_advance h _ hp hpipeline hdate hlog hmessages hcursor ?_ ?_ ?_ ?_
    · rw [Delivered, hdate, ho]
      exact deadLetter_setAside hroom hmem
    · rw [hrecords]
      exact fun r hr => List.mem_append_left _ hr
    · intro r hr
      rw [hrecords, List.mem_append, List.mem_singleton] at hr
      rcases hr with hr | rfl
      · exact Or.inl hr
      · exact Or.inr ⟨ho, deadLetter_key hroom _ _ _ _⟩
    · intro uid
      rw [ho, horders]

end OrderDepot.Delivery.Bench
