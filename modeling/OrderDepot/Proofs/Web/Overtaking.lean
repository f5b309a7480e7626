import Mathlib.Data.List.Infix
import OrderDepot.Proofs.Cache.Entries
import OrderDepot.Proofs.Web.Query

/-!
# Lookups that overtake one another

A lookup is answered by the store in its first step and writes to the cache in its second. Between the two an order may
be saved again, and other lookups may start and end. What a lookup writes is then old, but it takes the place of what is
in the cache. So readers that come later can be given an older order than readers before them, and they are just if a
lookup with such an order was on its way.
-/

namespace OrderDepot.Web

/-- A lookup that was started. -/
inductive Course where
  | waiting (uid : OrderUid) (answer : StoreAnswer)
  | ended (result : Found)
  deriving DecidableEq

structure Traffic where
  store : Store.Memory := {}
  cache : OrderCache
  clock : Nat := 0
  saved : List Order := []
  lookups : List Course := []

namespace Traffic

inductive Event where
  | save (o : Order)
  | available (value : Bool)
  | advance (nanos : Nat)
  | start (text : String) (late : Bool)
  | finish (lookup : Nat)

def idle (bounds : Cache.Bounds) : Traffic := { cache := ⟨bounds, {}⟩ }

def apply (s : Traffic) : Event → Traffic
  | .save o =>
    match s.store.save o with
    | (.ok (), store) => { s with store, saved := s.saved ++ [o] }
    | (.error _, store) => { s with store }
  | .available value => { s with store := { s.store with online := value } }
  | .advance nanos => { s with clock := s.clock + nanos }
  | .start text late =>
    match Lookup.start s.cache s.clock text with
    | (.settled r, cache) => { s with cache, lookups := s.lookups ++ [.ended r] }
    | (.asking uid, cache) =>
      let answer := if late then .late else storeAnswer s.store uid
      { s with cache, store := (s.store.get uid).2, lookups := s.lookups ++ [.waiting uid answer] }
  | .finish i =>
    match s.lookups[i]? with
    | some (.waiting uid answer) =>
      let (r, cache) := Lookup.finish s.cache s.clock uid answer
      { s with cache, lookups := s.lookups.set i (.ended r) }
    | _ => s

def run (s : Traffic) (events : List Event) : Traffic := events.foldl apply s

def versions (s : Traffic) (uid : OrderUid) : List Order := s.saved.filter (·.uid = uid)

/-- The lookup with this number has responded with an order. -/
def Gave (s : Traffic) (i : Nat) (o : Order) (source : Source) : Prop :=
  s.lookups[i]? = some (.ended (.ok (o, source)))

def Pending (s : Traffic) (uid : OrderUid) (o : Order) : Prop :=
  ∃ i : Nat, s.lookups[i]? = some (.waiting uid (.order o))

instance (s : Traffic) (i : Nat) (o : Order) (source : Source) : Decidable (s.Gave i o source) :=
  inferInstanceAs (Decidable (_ = _))

/-- All that an event can do. -/
inductive Step (s : Traffic) : Traffic → Prop where
  | other {store : Store.Memory} {clock : Nat} (orders : store.orders = s.store.orders) :
    Step s { s with store, clock }
  | save {store : Store.Memory} (o : Order) (orders : store.orders = s.store.orders.put o.uid o) :
    Step s { s with store, saved := s.saved ++ [o] }
  | refuse (e : RequestError) : Step s { s with lookups := s.lookups ++ [.ended (.error e)] }
  | hit {uid : OrderUid} {o : Order} (get : (s.cache.get s.clock uid).1 = some o) :
    Step s { s with cache := (s.cache.get s.clock uid).2, lookups := s.lookups ++ [.ended (.ok (o, .cache))] }
  | ask {uid : OrderUid} {text : String} {answer : StoreAnswer} {store : Store.Memory}
    (named : readOrderId text = .ok uid) (orders : store.orders = s.store.orders)
    (answers : ∀ o, answer = .order o → s.store.orders.find? uid = some o) :
    Step s { s with cache := (s.cache.get s.clock uid).2, store, lookups := s.lookups ++ [.waiting uid answer] }
  | fill {uid : OrderUid} {i : Nat} {o : Order} (waits : s.lookups[i]? = some (.waiting uid (.order o))) :
    Step s { s with cache := s.cache.set s.clock uid o, lookups := s.lookups.set i (.ended (.ok (o, .db))) }
  | fail {i : Nat} (e : RequestError) : Step s { s with lookups := s.lookups.set i (.ended (.error e)) }

theorem step_apply (s : Traffic) (event : Event) : Step s (s.apply event) := by
  cases event with
  | save o =>
    simp only [apply, Store.Memory.save]
    cases s.store.online with
    | true => exact .save o rfl
    | false => exact .other rfl
  | available value => exact .other rfl
  | advance nanos => exact .other rfl
  | start text late =>
    cases hid : readOrderId text with
    | error e =>
      simp only [apply, Lookup.start_malformed hid]
      exact .refuse _
    | ok uid =>
      cases hget : (s.cache.get s.clock uid).1 with
      | some o =>
        simp only [apply, Lookup.start_hit hid hget]
        exact .hit hget
      | none =>
        simp only [apply, Lookup.start_miss hid hget]
        refine .ask hid (orders_get s.store uid) fun o hanswer => ?_
        cases late with
        | true => cases hanswer
        | false => exact find?_of_storeAnswer hanswer
  | finish i =>
    simp only [apply]
    split
    · next uid answer hwaits =>
      cases answer with
      | order o => exact .fill hwaits
      | late => exact .fail .timeout
      | failed cause =>
        cases cause with
        | notFound => exact .fail (.notFound "order")
        | database fault => exact .fail (.database (.database fault))
        | dataCorruption text => exact .fail (.database (.dataCorruption text))
        | unavailable text => exact .fail (.database (.unavailable text))
    · exact .other rfl

variable {s s' : Traffic} {uid : OrderUid} {o : Order} {source : Source} {i n : Nat}

theorem uid_of_mem_versions (h : o ∈ s.versions uid) : o.uid = uid := by
  simpa using (List.mem_filter.1 h).2

theorem Step.versions (h : Step s s') (uid : OrderUid) : s.versions uid <+: s'.versions uid := by
  cases h with
  | save o => exact (List.prefix_append s.saved [o]).filter _
  | other | refuse | hit | ask | fill | fail => exact List.prefix_refl _

theorem versions_save (s : Traffic) (o : Order) (store : Store.Memory) (uid : OrderUid) :
    ({ s with store, saved := s.saved ++ [o] } : Traffic).versions uid =
      if uid = o.uid then s.versions uid ++ [o] else s.versions uid := by
  rw [versions, versions, List.filter_append]
  split
  · next huid => rw [List.filter_cons_of_pos (by simpa using huid.symm), List.filter_nil]
  · next huid => rw [List.filter_cons_of_neg (by simpa using Ne.symm huid), List.filter_nil, List.append_nil]

theorem mem_drop_of_initial {α : Type} {l l' : List α} {a : α} (h : l <+: l') (ha : a ∈ l.drop n) : a ∈ l'.drop n :=
  (h.drop n).subset ha

theorem mem_drop_of_getLast? {α : Type} {l : List α} {a : α} (h : l.getLast? = some a) (hn : n < l.length) :
    a ∈ l.drop n := by
  obtain ⟨l, rfl⟩ := List.getLast?_eq_some_iff.1 h
  rw [List.length_append, List.length_singleton] at hn
  rw [List.drop_append_of_le_length (Nat.le_of_lt_succ hn)]
  exact List.mem_append_right _ (List.mem_singleton_self a)

def Each (P : Nat → Course → Prop) (l : List Course) : Prop :=
  ∀ (i : Nat) (c : Course), l[i]? = some c → P i c

section

variable {P Q : Nat → Course → Prop} {l : List Course} {c : Course}

theorem Each.imp (h : Each P l) (hpq : ∀ i c, P i c → Q i c) : Each Q l :=
  fun i c hc => hpq i c (h i c hc)

theorem Each.append (h : Each P l) (hc : P l.length c) : Each P (l ++ [c]) := by
  intro i c' hi
  rcases Nat.lt_trichotomy i l.length with hlt | rfl | hgt
  · exact h i c' ((List.getElem?_append_left hlt).symm.trans hi)
  · rw [List.getElem?_concat_length] at hi
    cases hi
    exact hc
  · rw [List.getElem?_eq_none (by simp; omega)] at hi
    cases hi

theorem Each.set (h : Each P l) (hc : P i c) : Each P (l.set i c) := by
  intro j c' hj
  rw [List.getElem?_set] at hj
  split at hj
  · next heq =>
    split at hj
    · cases hj
      exact heq ▸ hc
    · cases hj
  · exact h j c' hj

end

def Honest (s : Traffic) : Course → Prop
  | .waiting uid answer => (∃ text, readOrderId text = .ok uid) ∧ ∀ o, answer = .order o → o ∈ s.versions uid
  | .ended r => ∀ o source, r = .ok (o, source) → o ∈ s.versions o.uid

theorem honest_error (s : Traffic) (e : RequestError) : s.Honest (.ended (.error e)) := by
  rintro _ _ ⟨⟩

structure Sound (s : Traffic) : Prop where
  stored : ∀ uid, s.store.orders.find? uid = (s.versions uid).getLast?
  cached : s.cache.Keeps fun k a => a ∈ s.versions k
  lookups : Each (fun _ => s.Honest) s.lookups

theorem Honest.step {c : Course} (h : s.Honest c) (hstep : Step s s') : s'.Honest c := by
  cases c with
  | waiting uid answer => exact ⟨h.1, fun o ho => (hstep.versions uid).subset (h.2 o ho)⟩
  | ended r => exact fun o source ho => (hstep.versions o.uid).subset (h o source ho)

theorem sound_idle (bounds : Cache.Bounds) : (idle bounds).Sound :=
  ⟨fun _ => rfl, Cache.keeps_empty bounds _, fun _ _ h => nomatch h⟩

theorem Sound.step (hs : s.Sound) (hstep : Step s s') : s'.Sound := by
  have hcached : s.cache.Keeps fun k a => a ∈ s'.versions k := hs.cached.imp fun k _ ha => (hstep.versions k).subset ha
  have hlookups : Each (fun _ => s'.Honest) s.lookups := hs.lookups.imp fun _ _ hc => hc.step hstep
  cases hstep with
  | other orders => exact ⟨fun uid => orders ▸ hs.stored uid, hcached, hlookups⟩
  | save o orders =>
    refine ⟨fun uid => ?_, hcached, hlookups⟩
    rw [versions_save]
    simp only [orders, Keyed.find?_put]
    split
    · rw [List.getLast?_concat]
    · exact hs.stored uid
  | refuse e => exact ⟨hs.stored, hcached, hlookups.append (honest_error _ e)⟩
  | hit get =>
    obtain ⟨hversion, hafter⟩ := hcached.of_hit get
    refine ⟨hs.stored, hafter.imp fun _ _ => And.left, hlookups.append ?_⟩
    rintro _ _ ⟨⟩
    exact (uid_of_mem_versions hversion).symm ▸ hversion
  | ask named orders answers =>
    refine ⟨fun uid => orders ▸ hs.stored uid, hcached.get _ _, hlookups.append ⟨⟨_, named⟩, fun o ho => ?_⟩⟩
    exact List.mem_of_getLast? ((hs.stored _).symm.trans (answers o ho))
  | fill waits =>
    have hversion := (hlookups _ _ waits).2 _ rfl
    refine ⟨hs.stored, (hcached.set s.clock hversion).imp fun _ _ => And.left, hlookups.set ?_⟩
    rintro _ _ ⟨⟩
    exact (uid_of_mem_versions hversion).symm ▸ hversion
  | fail e => exact ⟨hs.stored, hcached, hlookups.set (honest_error _ e)⟩

theorem Sound.run (hs : s.Sound) (events : List Event) : (s.run events).Sound := by
  induction events generalizing s with
  | nil => exact hs
  | cons event events ih => exact ih (hs.step (step_apply s event))

def Caches (s : Traffic) (o : Order) : Prop :=
  s.cache.Keeps fun k a => a ∈ s.versions k ∧ (k = o.uid → a = o)

theorem caches_of_gave (hs : s.Sound) (hstep : Step s s') (hbefore : ¬ s.Gave i o source) (hgave : s'.Gave i o source) :
    s'.Caches o := by
  -- A lookup that has responded in this step is new in the list, or it has taken the place of one that waited.
  have hlookups : Each (fun j c => j = i → c = .ended (.ok (o, source)) → s'.Caches o) s.lookups := by
    rintro _ _ hc rfl rfl
    exact absurd hc hbefore
  suffices h : Each (fun j c => j = i → c = .ended (.ok (o, source)) → s'.Caches o) s'.lookups from
    h i _ hgave rfl rfl
  cases hstep with
  | other | save => exact hlookups
  | refuse | ask =>
    refine hlookups.append ?_
    rintro - ⟨⟩
  | fail =>
    refine hlookups.set ?_
    rintro - ⟨⟩
  | hit get =>
    obtain ⟨hversion, hafter⟩ := hs.cached.of_hit get
    refine hlookups.append ?_
    rintro rfl ⟨⟩
    exact uid_of_mem_versions hversion ▸ hafter
  | fill waits =>
    have hversion := (hs.lookups _ _ waits).2 _ rfl
    have hafter := hs.cached.set s.clock hversion
    refine hlookups.set ?_
    rintro rfl ⟨⟩
    exact uid_of_mem_versions hversion ▸ hafter

/-- What a lookup can have to do with version `n` of an order that was given before `s₀` was reached. What it has from
the store may be older if it was started before. What it gives may be older if it was started since and finds that in
the cache. -/
def Since (s₀ : Traffic) (uid : OrderUid) (n : Nat) (s : Traffic) (i : Nat) : Course → Prop
  | .waiting uid' answer => ∀ o, uid' = uid → answer = .order o →
    o ∈ (s.versions uid).drop n ∨ i < s₀.lookups.length ∧ s₀.Pending uid o
  | .ended r => s₀.lookups.length ≤ i → ∀ o source, o.uid = uid → r = .ok (o, source) →
    o ∈ (s.versions uid).drop n ∨ source = .cache ∧ s₀.Pending uid o

theorem since_error (s₀ : Traffic) (uid : OrderUid) (n : Nat) (s : Traffic) (i : Nat) (e : RequestError) :
    s₀.Since uid n s i (.ended (.error e)) := by
  rintro _ _ _ _ ⟨⟩

structure Later (s₀ : Traffic) (uid : OrderUid) (n : Nat) (s : Traffic) : Prop where
  grown : s₀.lookups.length ≤ s.lookups.length
  saved : n < (s.versions uid).length
  cached : s.cache.Keeps fun k a => a ∈ s.versions k ∧ (k = uid → a ∈ (s.versions uid).drop n ∨ s₀.Pending uid a)
  lookups : Each (s₀.Since uid n s) s.lookups

variable {s₀ : Traffic}

theorem Since.step {c : Course} (h : s₀.Since uid n s i c) (hstep : Step s s') : s₀.Since uid n s' i c := by
  have hdrop : ∀ o, o ∈ (s.versions uid).drop n → o ∈ (s'.versions uid).drop n := fun _ =>
    mem_drop_of_initial (hstep.versions uid)
  cases c with
  | waiting uid' answer => exact fun o huid ho => (h o huid ho).imp_left (hdrop o)
  | ended r => exact fun hi o source huid ho => (h hi o source huid ho).imp_left (hdrop o)

theorem Later.step (hs : s.Sound) (h : Later s₀ uid n s) (hstep : Step s s') : Later s₀ uid n s' := by
  have hgrows := hstep.versions
  have hsaved : n < (s'.versions uid).length := Nat.lt_of_lt_of_le h.saved (hgrows uid).length_le
  have hcached : s.cache.Keeps fun k a => a ∈ s'.versions k ∧
      (k = uid → a ∈ (s'.versions uid).drop n ∨ s₀.Pending uid a) :=
    h.cached.imp fun k a ha =>
      ⟨(hgrows k).subset ha.1, fun hk => (ha.2 hk).imp_left (mem_drop_of_initial (hgrows uid))⟩
  have hlookups : Each (s₀.Since uid n s') s.lookups := h.lookups.imp fun _ _ hc => hc.step hstep
  have happended : ∀ c : Course, s₀.lookups.length ≤ (s.lookups ++ [c]).length := fun c =>
    h.grown.trans (List.prefix_append _ _).length_le
  have hset : ∀ (i : Nat) (c : Course), s₀.lookups.length ≤ (s.lookups.set i c).length := fun i c =>
    h.grown.trans_eq List.length_set.symm
  cases hstep with
  | other | save => exact ⟨h.grown, hsaved, hcached, hlookups⟩
  | refuse e => exact ⟨happended _, hsaved, hcached, hlookups.append (since_error _ _ _ _ _ e)⟩
  | fail e => exact ⟨hset _ _, hsaved, hcached, hlookups.set (since_error _ _ _ _ _ e)⟩
  | hit get =>
    obtain ⟨⟨hversion, hentry⟩, hafter⟩ := hcached.of_hit get
    refine ⟨happended _, hsaved, hafter.imp fun _ _ => And.left, hlookups.append ?_⟩
    rintro - o source rfl ⟨⟩
    exact (hentry (uid_of_mem_versions hversion).symm).imp_right fun hpending => ⟨rfl, hpending⟩
  | ask named orders answers =>
    refine ⟨happended _, hsaved, hcached.get _ _, hlookups.append ?_⟩
    -- The store answers with the last version, and version `n` was saved before.
    rintro o rfl ho
    exact .inl (mem_drop_of_getLast? ((hs.stored _).symm.trans (answers o ho)) hsaved)
  | @fill uid' i o waits =>
    have hversion := (hs.lookups _ _ waits).2 o rfl
    have hwaits := hlookups _ _ waits
    have hentry : o ∈ s.versions uid' ∧ (uid' = uid → o ∈ (s.versions uid).drop n ∨ s₀.Pending uid o) :=
      ⟨hversion, fun huid => (hwaits o huid rfl).imp_right And.right⟩
    refine ⟨hset _ _, hsaved, (hcached.set s.clock hentry).imp fun _ _ => And.left, hlookups.set ?_⟩
    -- A lookup that was started since has asked the store since, so it brings no older version.
    rintro hi _ _ huid ⟨⟩
    refine (hwaits o ?_ rfl).imp_right fun hold => absurd hi (Nat.not_le.2 hold.1)
    exact (uid_of_mem_versions hversion).symm.trans huid

theorem Later.run (hs : s.Sound) (h : Later s₀ uid n s) (events : List Event) : Later s₀ uid n (s.run events) := by
  induction events generalizing s with
  | nil => exact h
  | cons event events ih =>
    have hstep := step_apply s event
    exact ih (hs.step hstep) (h.step hs hstep)

theorem later_of_gave (hcached : s.Caches o) (hversion : (s.versions o.uid)[n]? = some o) : Later s o.uid n s := by
  have hmem : o ∈ (s.versions o.uid).drop n := by
    refine List.mem_of_getElem? (i := 0) ?_
    rw [List.getElem?_drop]
    exact hversion
  refine ⟨Nat.le_refl _, (List.getElem?_eq_some_iff.1 hversion).1, hcached.imp fun _ _ ha => ⟨ha.1, fun hk => ?_⟩, ?_⟩
  · exact .inl (ha.2 hk ▸ hmem)
  · intro i c hi
    have hlt := (List.getElem?_eq_some_iff.1 hi).1
    cases c with
    | waiting uid answer =>
      rintro a rfl rfl
      exact .inr ⟨hlt, i, hi⟩
    | ended r => exact fun hle => absurd hle (Nat.not_le.2 hlt)

theorem finish_pending (hwaits : s.lookups[i]? = some (.waiting uid (.order o))) : s.apply (.finish i) =
    { s with cache := s.cache.set s.clock uid o, lookups := s.lookups.set i (.ended (.ok (o, .db))) } := by
  simp only [apply, hwaits, Lookup.finish]

theorem start_cached {text : String} (hid : readOrderId text = .ok uid) (hget : (s.cache.get s.clock uid).1 = some o)
    (late : Bool) : s.apply (.start text late) =
      { s with cache := (s.cache.get s.clock uid).2, lookups := s.lookups ++ [.ended (.ok (o, .cache))] } := by
  simp only [apply, Lookup.start_hit hid hget]

theorem gave_pending (hs : s.Sound) (hpending : s.Pending uid o) : ∃ future i, s.lookups.length ≤ i ∧
    (s.run future).versions uid = s.versions uid ∧ (s.run future).Gave i o .cache := by
  obtain ⟨i, hwaits⟩ := hpending
  obtain ⟨⟨text, hid⟩, -⟩ := hs.lookups i _ hwaits
  obtain ⟨r, hr, -⟩ := hs.cached
  refine ⟨[.finish i, .start text false], s.lookups.length, Nat.le_refl _, ?_⟩
  rw [run, List.foldl_cons, List.foldl_cons, List.foldl_nil, finish_pending hwaits, start_cached (o := o) hid]
  · refine ⟨rfl, ?_⟩
    have hlast : s.lookups.length = (s.lookups.set i (.ended (.ok (o, .db)))).length := List.length_set.symm
    rw [Gave, hlast]
    exact List.getElem?_concat_length
  · exact hr.get_after_set s.clock uid o

/-- A lookup that starts after a response gives the same version or a later one, or else it finds in the cache what was
pending at the time of the response. Whatever is pending then can be given later. -/
theorem answers_overtaken (bounds : Cache.Bounds) (past : List Event) (event : Event)
    (hbefore : ¬ ((idle bounds).run past).Gave i o source)
    (hgave : ((idle bounds).run (past ++ [event])).Gave i o source) :
    let s := (idle bounds).run (past ++ [event])
    o ∈ s.versions o.uid ∧
      (∀ n, (s.versions o.uid)[n]? = some o → ∀ future j o' source', s.lookups.length ≤ j →
        (s.run future).Gave j o' source' → o'.uid = o.uid →
          o' ∈ ((s.run future).versions o.uid).drop n ∨ source' = .cache ∧ s.Pending o.uid o') ∧
      ∀ o', s.Pending o.uid o' → ∃ future j, s.lookups.length ≤ j ∧
        (s.run future).versions o.uid = s.versions o.uid ∧ (s.run future).Gave j o' .cache := by
  intro s
  have hpast := (sound_idle bounds).run past
  have hstep : Step ((idle bounds).run past) s := by
    simp only [s, run, List.foldl_append]
    exact step_apply _ event
  have hs : s.Sound := hpast.step hstep
  refine ⟨hs.lookups i _ hgave o source rfl, ?_, fun o' => gave_pending hs⟩
  intro n hversion future j o' source' hj hgave' huid
  have hlater := (later_of_gave (caches_of_gave hpast hstep hbefore hgave) hversion).run hs future
  exact hlater.lookups j _ hgave' hj o' source' huid rfl

def firstVersion : Order := { uid := ⟨"a"⟩ }

def secondVersion : Order := { uid := ⟨"a"⟩, trackNumber := "2" }

def twoLookups : List Event := [.save firstVersion, .start "a" false, .save secondVersion, .start "a" false]

theorem twoLookups_second_ends : let s := (idle ⟨10, .ofSeconds 30⟩).run (twoLookups ++ [.finish 1])
    s.Gave 1 secondVersion .db ∧ (s.versions ⟨"a"⟩)[1]? = some secondVersion ∧
      s.lookups[0]? = some (.waiting ⟨"a"⟩ (.order firstVersion)) := by
  decide +kernel

theorem overtaken_answer_given : let s := (idle ⟨10, .ofSeconds 30⟩).run (twoLookups ++ [.finish 1])
    ¬ ((idle ⟨10, .ofSeconds 30⟩).run twoLookups).Gave 1 secondVersion .db ∧ s.Gave 1 secondVersion .db ∧
      (s.versions ⟨"a"⟩)[1]? = some secondVersion ∧
      ∃ future j, s.lookups.length ≤ j ∧ (s.run future).Gave j firstVersion .cache := by
  intro s
  obtain ⟨hgave, hversion, hwaits⟩ := twoLookups_second_ends
  have hbefore : ¬ ((idle ⟨10, .ofSeconds 30⟩).run twoLookups).Gave 1 secondVersion .db := by
    decide +kernel
  obtain ⟨-, -, hgiven⟩ := answers_overtaken ⟨10, .ofSeconds 30⟩ twoLookups (.finish 1) hbefore hgave
  obtain ⟨future, j, hj, -, hlater⟩ := hgiven firstVersion ⟨0, hwaits⟩
  exact ⟨hbefore, hgave, hversion, future, j, hj, hlater⟩

/-- The third lookup starts when the second one has responded, and is given an older version. -/
theorem third_lookup_goes_back : let s := (idle ⟨10, .ofSeconds 30⟩).run (twoLookups ++ [.finish 1])
    let later := s.run [.finish 0, .start "a" false]
    s.Gave 1 secondVersion .db ∧ (s.versions ⟨"a"⟩)[1]? = some secondVersion ∧ s.lookups.length ≤ 2 ∧
      later.Gave 2 firstVersion .cache ∧ firstVersion ∉ (later.versions ⟨"a"⟩).drop 1 := by
  decide +kernel

end Traffic

end OrderDepot.Web
