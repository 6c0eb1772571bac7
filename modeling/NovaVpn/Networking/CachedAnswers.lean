import NovaVpn.Networking.Resolver

/-!
# How long answers are kept

The resolver with a clock, the records that the queries are answered with, and
what is known of them afterwards: when the last query of a call was answered,
with which records, and which answers were served from the cache.
`collectRecords` passes over the records of other types, so the CNAME records
that lead to an address have no part in how long it is kept
(`cname_outlived`); and what is found in the cache says the TTL that it had
when it was stored. `served_right_iff`: the answers served are right about how
long they hold exactly if each is served at the very time it was obtained.
-/

namespace NovaVpn.Net

open NovaVpn.Framework

/-! ## Records -/

/-- A record, and the address that the data of an address record is. -/
structure DnsRecord where
  wType : UInt16
  dwTtl : UInt32
  address : IpAddress
  deriving DecidableEq, Repr

/-- `DNS_TYPE_A` and `DNS_TYPE_AAAA`. -/
def recordType : AddressFamily → UInt16
  | .ipv4 => 1
  | .ipv6 => 28

def collectRecords (type : UInt16) : List DnsRecord → List IpAddress → UInt32 →
    List IpAddress × UInt32
  | [], out, minTtl => (out, minTtl)
  | record :: records, out, minTtl =>
    if record.wType ≠ type then collectRecords type records out minTtl
    else collectRecords type records (out ++ [record.address]) (min minTtl record.dwTtl)

/-- The address records of a type. -/
def addressRecords (type : UInt16) (records : List DnsRecord) : List (IpAddress × UInt32) :=
  (records.filter (·.wType = type)).map fun record => (record.address, record.dwTtl)

/-- What a call gathers of its answers is what `collectRecords` makes of them. -/
theorem collectRecords_eq_add (g : Gathered) (binding : ScopeBinding) (type : UInt16)
    (records : List DnsRecord) :
    collectRecords type records (g.addresses.map Answer.address) g.minTtl =
      ((g.add binding (.ok (addressRecords type records))).addresses.map Answer.address,
        (g.add binding (.ok (addressRecords type records))).minTtl) := by
  induction records generalizing g with
  | nil => simp [collectRecords, Gathered.add, addressRecords]
  | cons record records ih =>
    by_cases htype : record.wType = type
    · have hstep := ih (g.add binding (.ok [(record.address, record.dwTtl)]))
      simpa [collectRecords, Gathered.add, addressRecords, htype] using hstep
    · simpa [collectRecords, addressRecords, htype] using ih g

/-- The least TTL is the one from before, or that of one of the records. -/
theorem collectRecords_minTtl (type : UInt16) (records : List DnsRecord) (out : List IpAddress)
    (ttl : UInt32) : (collectRecords type records out ttl).2 = ttl ∨
      ∃ record ∈ records, record.dwTtl = (collectRecords type records out ttl).2 := by
  induction records generalizing out ttl with
  | nil => exact Or.inl rfl
  | cons record records ih =>
    unfold collectRecords
    split
    next => exact (ih out ttl).imp_right fun ⟨r, hr, heq⟩ => ⟨r, List.mem_cons_of_mem _ hr, heq⟩
    next =>
      rcases ih (out ++ [record.address]) (min ttl record.dwTtl) with hkeep | ⟨r, hr, heq⟩
      · rw [hkeep]
        by_cases hle : ttl ≤ record.dwTtl
        · exact Or.inl (if_pos hle)
        · exact Or.inr ⟨record, List.mem_cons_self, (if_neg hle).symm⟩
      · exact Or.inr ⟨r, List.mem_cons_of_mem _ hr, heq⟩

/-! ## The resolver with a clock -/

/-- What an answer rests on, and when the last of its queries was answered. -/
structure Origin where
  records : List DnsRecord := []
  obtained : SteadyTime := 0
  deriving DecidableEq, Repr

/-- An answer that was found in the cache. -/
structure Served where
  now : SteadyTime
  resolved : ResolvedHost
  origin : Origin
  deriving DecidableEq, Repr

structure ClockedResolver where
  resolver : Resolver := {}
  clock : SteadyTime := 0
  /-- What the queries of a call were answered. -/
  answers : Nat → Origin := fun _ => {}
  /-- Where what was last stored under a key is from. -/
  origin : String → Origin := fun _ => {}
  /-- Newest first. -/
  served : List Served := []

inductive ClockedAct where
  | tick (ticks : Nat)
  | resolve (call : Nat) (host : String) (options : ResolveOptions)
  | lookup (call : Nat)
  | bind (call : Nat) (underlay : Result ScopeBinding)
  | query (call : Nat) (answer : Result (List DnsRecord))
  | store (call : Nat)
  | assign (setter : Nat) (binding : Option ScopeBinding)
  | flush (setter : Nat)
  | flushCache

namespace ClockedResolver

/-- The family that a call asks for next. -/
def asks (s : ClockedResolver) (call : Nat) : Option AddressFamily :=
  (s.resolver.resolves call).bind fun r =>
    match r.phase with
    | .querying _ (family :: _) _ => some family
    | _ => none

/-- What a call finds in the cache. -/
def finds (s : ClockedResolver) (call : Nat) : Option Served :=
  (s.resolver.resolves call).bind fun r =>
    if r.options.noCache then none
    else
      let key := makeCacheKey r.host r.options
      (cacheLookup key s.clock s.resolver.cache).2.map fun resolved =>
        { now := s.clock, resolved, origin := s.origin key }

def act (s : ClockedResolver) (act : ResolverAct) : Option ClockedResolver :=
  (s.resolver.step act).map fun resolver => { s with resolver }

def step (s : ClockedResolver) : ClockedAct → Option ClockedResolver
  | .tick ticks => some { s with clock := s.clock + ticks }
  | .resolve call host options => s.act (.resolve call host options)
  | .lookup call =>
    (s.act (.lookup call s.clock)).map fun s' => { s' with served := (s.finds call).toList ++ s.served }
  | .bind call underlay => s.act (.bind call underlay)
  | .query call answer =>
    (s.asks call).bind fun family =>
      (s.act (.query call (answer.map (addressRecords (recordType family))))).map fun s' =>
        { s' with
          answers := Function.update s.answers call
            { records := (s.answers call).records ++ answer.toOption.getD [], obtained := s.clock } }
  | .store call =>
    (s.resolver.resolves call).bind fun r =>
      (s.act (.store call s.clock)).map fun s' =>
        { s' with
          origin := Function.update s.origin (makeCacheKey r.host r.options) (s.answers call) }
  | .assign setter binding => s.act (.assign setter binding)
  | .flush setter => s.act (.flush setter)
  | .flushCache => s.act .flushCache

end ClockedResolver

/-! ## What an answer from the cache has to hold to -/

namespace Served

/-- It is served while each record of the answer is still valid. -/
def Lives (h : Served) : Prop :=
  ∀ record ∈ h.origin.records,
    h.now < h.origin.obtained + record.dwTtl.toNat * 1000000000

/-- The TTL that it says does not go beyond that either. -/
def SaysWhatRemains (h : Served) : Prop :=
  ∀ record ∈ h.origin.records,
    h.now + h.resolved.ttl * 1000000000 ≤
      h.origin.obtained + record.dwTtl.toNat * 1000000000

def Right (h : Served) : Prop := h.Lives ∧ h.SaysWhatRemains

end Served

/-- The TTL of the answer is not beyond that of any of its records. -/
def ttlOfAll (resolved : ResolvedHost) (origin : Origin) : Bool :=
  origin.records.all fun record => resolved.ttl ≤ record.dwTtl.toNat

/-- What is found in the cache was obtained now, and its TTL is that of all. -/
def servesAtOnce (s : ClockedResolver) : ClockedAct → Bool
  | .lookup call =>
    (s.finds call).all fun h => s.clock ≤ h.origin.obtained && ttlOfAll h.resolved h.origin
  | _ => true

/-- What is stored was obtained now, and its TTL is that of all. -/
def storesAtOnce (s : ClockedResolver) : ClockedAct → Bool
  | .store call =>
    (s.resolver.resolves call).all fun r =>
      match r.phase with
      | .storing _ resolved =>
        s.clock ≤ (s.answers call).obtained && ttlOfAll resolved (s.answers call)
      | _ => true
  | _ => true

/-! ## What a step does to the calls and the cache -/

/-- No query has been answered, or nothing is stored any more. -/
def ResolvePhase.Fresh : ResolvePhase → Prop
  | .querying _ _ gathered => gathered = {}
  | .storing _ _ => False
  | _ => True

/-- Calls stay in their phases or come to one that is fresh, and the cache has
no new entries. -/
structure Resolver.Keeps (s s' : Resolver) : Prop where
  phases : ∀ call r', s'.resolves call = some r' →
    (∃ r, s.resolves call = some r ∧ r.phase = r'.phase) ∨ r'.phase.Fresh
  entries : ∀ key entry, s'.cache.lookup key = some entry → s.cache.lookup key = some entry

namespace Resolver

variable {s s' : Resolver} {call : Nat} {r : Resolve}

theorem keeps_setPhase {phase : ResolvePhase} (hfresh : phase.Fresh) {cache : ResolverCache}
    (hcache : ∀ key entry, cache.lookup key = some entry → s.cache.lookup key = some entry) :
    s.Keeps ({ s with cache }.setPhase call r phase) := by
  refine ⟨fun call' r' hr' => ?_, hcache⟩
  rcases update_some_cases hr' with ⟨-, rfl⟩ | ⟨-, hr'⟩
  · exact Or.inr hfresh
  · exact Or.inl ⟨r', hr', rfl⟩

theorem keeps_resolve {host : String} {options : ResolveOptions}
    (hs : s.step (.resolve call host options) = some s') : s.Keeps s' := by
  simp only [step] at hs
  split at hs
  · cases hs
  · cases hs
    refine ⟨fun call' r' hr' => ?_, fun _ _ h => h⟩
    rcases update_some_cases hr' with ⟨-, rfl⟩ | ⟨-, hr'⟩
    · right
      dsimp only
      split <;> trivial
    · exact Or.inl ⟨r', hr', rfl⟩

theorem keeps_lookup {now : SteadyTime} (hs : s.step (.lookup call now) = some s') :
    s.Keeps s' := by
  obtain ⟨r, -, hs⟩ := Option.bind_eq_some_iff.mp hs
  simp only [advance] at hs
  split at hs
  · split at hs
    · cases hs
      refine keeps_setPhase ?_ fun _ _ h => h
      trivial
    · cases hs
      refine keeps_setPhase ?_ fun _ _ => lookup_of_cacheLookup
      split <;> trivial
  · cases hs

theorem keeps_bind {underlay : Result ScopeBinding}
    (hs : s.step (.bind call underlay) = some s') : s.Keeps s' := by
  obtain ⟨r, -, hs⟩ := Option.bind_eq_some_iff.mp hs
  simp only [advance] at hs
  split at hs
  · cases hs
    refine keeps_setPhase ?_ fun _ _ h => h
    split
    · trivial
    · rfl
  · cases hs

theorem keeps_assign {setter : Nat} {binding : Option ScopeBinding}
    (hs : s.step (.assign setter binding) = some s') : s.Keeps s' := by
  simp only [step] at hs
  split at hs
  · cases hs
  · cases hs
    refine ⟨fun call r' hr' => ?_, fun _ _ h => h⟩
    obtain ⟨r, hr, rfl⟩ := Option.map_eq_some_iff.mp hr'
    refine Or.inl ⟨r, hr, ?_⟩
    unfold Resolve.observe
    split <;> rfl

theorem keeps_flush (s : Resolver) (setters : List Nat) :
    s.Keeps { s with cache := ∅, setters } :=
  ⟨fun _ r hr => Or.inl ⟨r, hr, rfl⟩, fun _ _ h => nomatch h⟩

end Resolver

/-! ## The invariant -/

/-- The TTL of an answer is that of a record it rests on. -/
def Backed (resolved : ResolvedHost) (origin : Origin) : Prop :=
  0 < resolved.ttl ∧ ∃ record ∈ origin.records, record.dwTtl.toNat = resolved.ttl

/-- What a call has gathered rests on its answers. -/
def ResolvePhase.Rests (origin : Origin) : ResolvePhase → Prop
  | .querying _ _ gathered =>
    gathered.minTtl = 0xFFFFFFFF ∨ ∃ record ∈ origin.records, record.dwTtl = gathered.minTtl
  | .storing _ resolved => Backed resolved origin
  | _ => True

theorem ResolvePhase.Fresh.rests {phase : ResolvePhase} (h : phase.Fresh) (origin : Origin) :
    phase.Rests origin := by
  match phase, h with
  | .start, _ => trivial
  | .unbound, _ => trivial
  | .querying _ _ _, rfl => exact Or.inl rfl
  | .returned _, _ => trivial

theorem rests_add {origin : Origin} {g : Gathered}
    (h : g.minTtl = 0xFFFFFFFF ∨ ∃ record ∈ origin.records, record.dwTtl = g.minTtl)
    (binding : ScopeBinding) (type : UInt16) (answer : Result (List DnsRecord)) :
    let gathered := g.add binding (answer.map (addressRecords type))
    gathered.minTtl = 0xFFFFFFFF ∨
      ∃ record ∈ origin.records ++ answer.toOption.getD [], record.dwTtl = gathered.minTtl := by
  have hold : g.minTtl = 0xFFFFFFFF ∨
      ∃ record ∈ origin.records ++ answer.toOption.getD [], record.dwTtl = g.minTtl := by
    refine h.imp_right ?_
    rintro ⟨record, hmem, heq⟩
    exact ⟨record, List.mem_append_left _ hmem, heq⟩
  cases answer with
  | error status => exact hold
  | ok records =>
    have hcollected := congrArg Prod.snd (collectRecords_eq_add g binding type records)
    have hcases := collectRecords_minTtl type records (g.addresses.map Answer.address) g.minTtl
    rw [hcollected] at hcases
    rcases hcases with hkeep | ⟨record, hmem, heq⟩
    · exact hold.imp hkeep.trans fun ⟨r, hr, heq⟩ => ⟨r, hr, heq.trans hkeep.symm⟩
    · exact Or.inr ⟨record, List.mem_append_right _ hmem, heq⟩

theorem rests_concluded {origin : Origin} {g : Gathered}
    (h : g.minTtl = 0xFFFFFFFF ∨ ∃ record ∈ origin.records, record.dwTtl = g.minTtl)
    (host : String) (options : ResolveOptions) (binding : ScopeBinding) :
    (concluded host options binding g).Rests origin := by
  unfold concluded
  cases hresolved : g.resolved host options binding with
  | error status => trivial
  | ok resolved =>
    dsimp only
    split
    next hstored =>
      have hpos : 0 < resolved.ttl := of_decide_eq_true (Bool.and_eq_true_iff.mp hstored).2
      have httl : resolved.ttl = if g.minTtl = 0xFFFFFFFF then 0 else g.minTtl.toNat := by
        unfold Gathered.resolved at hresolved
        split at hresolved
        · cases hresolved
        · cases hresolved
          rfl
      rcases h with hmax | ⟨record, hmem, heq⟩
      · rw [httl, if_pos hmax] at hpos
        exact absurd hpos (Nat.lt_irrefl 0)
      · refine ⟨hpos, record, hmem, ?_⟩
        rw [httl] at hpos ⊢
        split at hpos
        · exact absurd hpos (Nat.lt_irrefl 0)
        next hne => rw [if_neg hne, heq]
    next => trivial

/-- What is known of the calls and of the cache; if `atOnce`, every entry
expires in time. -/
structure ClockedInv (atOnce : Prop) (s : ClockedResolver) : Prop where
  calls : ∀ call r, s.resolver.resolves call = some r → r.phase.Rests (s.answers call)
  past : ∀ call, (s.answers call).obtained ≤ s.clock
  kept : ∀ key entry, s.resolver.cache.lookup key = some entry →
    Backed entry.resolved (s.origin key) ∧ (s.origin key).obtained ≤ s.clock ∧
      (atOnce → ∀ record ∈ (s.origin key).records,
        entry.expires ≤ (s.origin key).obtained + record.dwTtl.toNat * 1000000000)
  lives : atOnce → ∀ h ∈ s.served, h.Lives

namespace ClockedInv

variable {atOnce : Prop} {s s' : ClockedResolver} {call : Nat}

theorem keeps (h : ClockedInv atOnce s) {resolver : Resolver} (hk : s.resolver.Keeps resolver) :
    ClockedInv atOnce { s with resolver } := by
  refine ⟨fun call r hr => ?_, h.past, fun key entry hentry => ?_, h.lives⟩
  · obtain ⟨r', hr', hphase⟩ | hfresh := hk.phases call r hr
    · rw [← hphase]
      exact h.calls call r' hr'
    · exact hfresh.rests _
  · exact h.kept key entry (hk.entries key entry hentry)

theorem act (h : ClockedInv atOnce s) {act : ResolverAct}
    (hk : ∀ resolver, s.resolver.step act = some resolver → s.resolver.Keeps resolver)
    (hs : s.act act = some s') : ClockedInv atOnce s' := by
  obtain ⟨resolver, hstep, rfl⟩ := Option.map_eq_some_iff.mp hs
  exact h.keeps (hk resolver hstep)

theorem tick (h : ClockedInv atOnce s) (ticks : Nat) :
    ClockedInv atOnce { s with clock := s.clock + ticks } := by
  refine ⟨h.calls, fun call => Nat.le_add_right_of_le (h.past call), fun key entry hentry => ?_,
    h.lives⟩
  obtain ⟨hbacked, hpast, hexpires⟩ := h.kept key entry hentry
  exact ⟨hbacked, Nat.le_add_right_of_le hpast, hexpires⟩

/-- What is served was in the cache, and had not expired. -/
theorem finds (h : ClockedInv atOnce s) {served : Served} (hs : s.finds call = some served) :
    Backed served.resolved served.origin ∧ served.now = s.clock ∧
      served.origin.obtained ≤ s.clock ∧ (atOnce → served.Lives) := by
  obtain ⟨r, -, hs⟩ := Option.bind_eq_some_iff.mp hs
  split at hs
  · cases hs
  · obtain ⟨resolved, hfound, rfl⟩ := Option.map_eq_some_iff.mp hs
    unfold cacheLookup at hfound
    split at hfound
    · cases hfound
    next entry hentry =>
      split at hfound
      · cases hfound
      next hnow =>
        cases hfound
        obtain ⟨hbacked, hpast, hexpires⟩ := h.kept _ entry hentry
        refine ⟨hbacked, rfl, hpast, fun hatOnce record hrecord => ?_⟩
        exact Nat.lt_of_lt_of_le (Nat.lt_of_not_le hnow) (hexpires hatOnce record hrecord)

theorem lookup (h : ClockedInv atOnce s) (hs : s.step (.lookup call) = some s') :
    ClockedInv atOnce s' := by
  obtain ⟨s₁, hact, rfl⟩ := Option.map_eq_some_iff.mp hs
  obtain ⟨resolver, hstep, rfl⟩ := Option.map_eq_some_iff.mp hact
  obtain ⟨hcalls, hpast, hkept, hlives⟩ := h.keeps (Resolver.keeps_lookup hstep)
  refine ⟨hcalls, hpast, hkept, fun hatOnce served hserved => ?_⟩
  rcases List.mem_append.mp hserved with hfound | hserved
  · exact (h.finds (Option.mem_toList.mp hfound)).2.2.2 hatOnce
  · exact hlives hatOnce served hserved

theorem query (h : ClockedInv atOnce s) {answer : Result (List DnsRecord)}
    (hs : s.step (.query call answer) = some s') : ClockedInv atOnce s' := by
  obtain ⟨family, -, hs⟩ := Option.bind_eq_some_iff.mp hs
  obtain ⟨s₁, hact, rfl⟩ := Option.map_eq_some_iff.mp hs
  obtain ⟨resolver, hstep, rfl⟩ := Option.map_eq_some_iff.mp hact
  obtain ⟨r, binding, family', left, g, hr, hphase, rfl⟩ := Resolver.query_cases hstep
  have hrests := h.calls call r hr
  rw [hphase] at hrests
  refine ⟨fun call' r' hr' => ?_, fun call' => ?_, h.kept, h.lives⟩
  · dsimp only
    rcases update_some_cases hr' with ⟨rfl, rfl⟩ | ⟨hne, hr'⟩
    · rw [Function.update_self]
      have hadded := rests_add hrests binding (recordType family) answer
      split
      · exact rests_concluded hadded r.host r.options binding
      · exact hadded
    · rw [Function.update_of_ne hne]
      exact h.calls call' r' hr'
  · dsimp only
    by_cases hcall : call' = call
    · rw [hcall, Function.update_self]
    · rw [Function.update_of_ne hcall]
      exact h.past call'

theorem store (h : ClockedInv atOnce s) (hok : atOnce → storesAtOnce s (.store call) = true)
    (hs : s.step (.store call) = some s') : ClockedInv atOnce s' := by
  obtain ⟨r, hr, hs⟩ := Option.bind_eq_some_iff.mp hs
  obtain ⟨s₁, hact, rfl⟩ := Option.map_eq_some_iff.mp hs
  obtain ⟨resolver, hstep, rfl⟩ := Option.map_eq_some_iff.mp hact
  obtain ⟨r', binding, resolved, hr', hphase, rfl⟩ := Resolver.store_cases hstep
  cases hr.symm.trans hr'
  have hrests := h.calls call r hr
  rw [hphase] at hrests
  refine ⟨fun call' r' hr' => ?_, h.past, fun key entry hentry => ?_, h.lives⟩
  · rcases update_some_cases hr' with ⟨-, rfl⟩ | ⟨-, hr'⟩
    · trivial
    · exact h.calls call' r' hr'
  · dsimp only
    rcases cacheStore_cases hentry with ⟨rfl, rfl⟩ | ⟨hne, hentry⟩
    · rw [Function.update_self]
      refine ⟨hrests, h.past call, fun hatOnce record hrecord => ?_⟩
      have hnow := hok hatOnce
      simp only [storesAtOnce, hr, hphase, Option.all_some, Bool.and_eq_true, decide_eq_true_eq,
        ttlOfAll, List.all_eq_true] at hnow
      obtain ⟨hclock, httl⟩ := hnow
      have hmin := Nat.mul_le_mul_right 1000000000 (httl record hrecord)
      exact Nat.add_le_add hclock hmin
    · rw [Function.update_of_ne hne]
      exact h.kept key entry hentry

theorem step (h : ClockedInv atOnce s) {act : ClockedAct}
    (hok : atOnce → storesAtOnce s act = true) (hs : s.step act = some s') :
    ClockedInv atOnce s' := by
  cases act with
  | tick ticks =>
    cases hs
    exact h.tick ticks
  | resolve call host options => exact h.act (fun _ => Resolver.keeps_resolve) hs
  | lookup call => exact h.lookup hs
  | bind call underlay => exact h.act (fun _ => Resolver.keeps_bind) hs
  | query call answer => exact h.query hs
  | store call => exact h.store hok hs
  | assign setter binding => exact h.act (fun _ => Resolver.keeps_assign) hs
  | flush setter =>
    refine h.act (fun resolver hstep => ?_) hs
    simp only [Resolver.step] at hstep
    split at hstep
    · cases hstep
      exact Resolver.keeps_flush _ _
    · cases hstep
  | flushCache =>
    refine h.act (fun resolver hstep => ?_) hs
    cases hstep
    exact Resolver.keeps_flush _ _

theorem start : ClockedInv atOnce {} :=
  ⟨fun _ _ hr => (nomatch hr), fun _ => Nat.le_refl 0, fun _ _ hentry => (nomatch hentry),
    fun _ _ hserved => (nomatch hserved)⟩

end ClockedInv

/-! ## Answers from the cache -/

/-- An answer whose TTL is that of one of its records is right only at the time
it was obtained, and if no record has a smaller one. -/
theorem Served.right_iff {h : Served} (hbacked : Backed h.resolved h.origin)
    (hpast : h.origin.obtained ≤ h.now) :
    h.Right ↔ h.now ≤ h.origin.obtained ∧ ttlOfAll h.resolved h.origin = true := by
  obtain ⟨hpos, record, hrecord, httl⟩ := hbacked
  simp only [ttlOfAll, List.all_eq_true, decide_eq_true_eq]
  constructor
  · rintro ⟨-, hsaid⟩
    have hat : h.now ≤ h.origin.obtained := by
      have hremains := hsaid record hrecord
      rw [httl] at hremains
      exact Nat.le_of_add_le_add_right hremains
    refine ⟨hat, fun other hother => ?_⟩
    have hremains := Nat.le_trans (Nat.add_le_add_right hpast _) (hsaid other hother)
    exact Nat.le_of_mul_le_mul_right (Nat.le_of_add_le_add_left hremains) (by decide)
  · rintro ⟨hat, hall⟩
    have hsaid : h.SaysWhatRemains := fun other hother =>
      Nat.add_le_add hat (Nat.mul_le_mul_right 1000000000 (hall other hother))
    refine ⟨fun other hother => ?_, hsaid⟩
    exact Nat.lt_of_lt_of_le (Nat.lt_add_of_pos_right (Nat.mul_pos hpos (by decide)))
      (hsaid other hother)

/-- What a step serves. -/
theorem served_of_step {s s' : ClockedResolver} {act : ClockedAct} (hs : s.step act = some s') :
    s'.served = (match act with
      | .lookup call => (s.finds call).toList
      | _ => []) ++ s.served := by
  have hact {act : ResolverAct} {s₁ : ClockedResolver} (h : s.act act = some s₁) :
      s₁.served = s.served := by
    obtain ⟨resolver, -, rfl⟩ := Option.map_eq_some_iff.mp h
    rfl
  cases act with
  | tick ticks =>
    cases hs
    rfl
  | lookup call =>
    obtain ⟨s₁, -, rfl⟩ := Option.map_eq_some_iff.mp hs
    rfl
  | query call answer =>
    obtain ⟨family, -, hs⟩ := Option.bind_eq_some_iff.mp hs
    obtain ⟨s₁, h, rfl⟩ := Option.map_eq_some_iff.mp hs
    have hserved := hact h
    exact hserved
  | store call =>
    obtain ⟨r, -, hs⟩ := Option.bind_eq_some_iff.mp hs
    obtain ⟨s₁, h, rfl⟩ := Option.map_eq_some_iff.mp hs
    have hserved := hact h
    exact hserved
  | resolve _ _ _ | bind _ _ | assign _ _ | flush _ | flushCache => exact hact hs

/-- A step keeps what is served right exactly if it serves only what was
obtained at that very time. -/
theorem right_step_iff {s s' : ClockedResolver} {act : ClockedAct} (h : ClockedInv False s)
    (hs : s.step act = some s') :
    (∀ served ∈ s'.served, served.Right) ↔
      (∀ served ∈ s.served, served.Right) ∧ servesAtOnce s act = true := by
  rw [served_of_step hs]
  cases act with
  | lookup call =>
    cases hfinds : s.finds call with
    | none => simp [servesAtOnce, hfinds]
    | some served =>
      obtain ⟨hbacked, hnow, hpast, -⟩ := h.finds hfinds
      have hright := Served.right_iff hbacked (hnow ▸ hpast)
      rw [hnow] at hright
      simp [servesAtOnce, hfinds, hright, and_comm]
  | _ => simp [servesAtOnce]

/-- In every run, of any number of calls: the answers served from the cache are
right about how long they hold exactly if each is served at the time it was
obtained, with a TTL that is that of all its records. None outlives a record if
that is so when it is stored. -/
theorem served_right_iff {acts : List ClockedAct} {s : ClockedResolver}
    (hr : run ClockedResolver.step {} acts = some s) :
    ((∀ served ∈ s.served, served.Right) ↔
        RunMeets ClockedResolver.step (fun s act => servesAtOnce s act = true) {} acts) ∧
      (RunMeets ClockedResolver.step (fun s act => storesAtOnce s act = true) {} acts →
        ∀ served ∈ s.served, served.Lives) := by
  constructor
  · have hstep : ∀ s act s', ClockedInv False s → ClockedResolver.step s act = some s' →
        ClockedInv False s' ∧ ((∀ served ∈ s'.served, served.Right) ↔
          (∀ served ∈ s.served, served.Right) ∧ servesAtOnce s act = true) :=
      fun _ _ _ h hs => ⟨h.step False.elim hs, right_step_iff h hs⟩
    rw [run_iff_meets hstep ClockedInv.start hr]
    exact and_iff_right fun _ hserved => nomatch hserved
  · intro hmeets
    have hinv : ClockedInv True s :=
      run_invariant (fun _ _ _ h hok hs => h.step (fun _ => hok) hs) ClockedInv.start hmeets hr
    exact hinv.lives trivial

def systemV4 : ResolveOptions where
  family := some .ipv4

/-- A call that stores its answer, and one that finds it after a time. -/
def storeThenServe (records : List DnsRecord) (ticks : Nat) : List ClockedAct :=
  [.resolve 0 "cdn.example" systemV4, .lookup 0, .bind 0 (.ok {}), .query 0 (.ok records), .store 0,
    .tick ticks, .resolve 1 "cdn.example" systemV4, .lookup 1]

def cnameRecord (dwTtl : UInt32) : DnsRecord :=
  { wType := 5, dwTtl, address := .fromV4 0 0 0 0 }

def aRecord (dwTtl : UInt32) : DnsRecord :=
  { wType := 1, dwTtl, address := .fromV4 10 1 2 3 }

theorem served_at_once :
    (∃ s, run ClockedResolver.step {} (storeThenServe [cnameRecord 300, aRecord 300] 0) = some s ∧
      s.served.length = 1 ∧ ∀ served ∈ s.served, served.Right) ∧
    ∃ s, run ClockedResolver.step {}
        (storeThenServe [cnameRecord 300, aRecord 300] 10000000000) = some s ∧
      s.served.length = 1 ∧ ∀ served ∈ s.served, served.Lives := by
  constructor
  · have hrun : (run ClockedResolver.step {}
        (storeThenServe [cnameRecord 300, aRecord 300] 0)).map (·.served.length) = some 1 := by
      decide +kernel
    obtain ⟨s, hs, hlength⟩ := Option.map_eq_some_iff.mp hrun
    exact ⟨s, hs, hlength, (served_right_iff hs).1.mpr (by decide +kernel)⟩
  · have hrun : (run ClockedResolver.step {}
        (storeThenServe [cnameRecord 300, aRecord 300] 10000000000)).map (·.served.length) =
          some 1 := by
      decide +kernel
    obtain ⟨s, hs, hlength⟩ := Option.map_eq_some_iff.mp hrun
    exact ⟨s, hs, hlength, (served_right_iff hs).2 (by decide +kernel)⟩

/-- What is found ten seconds later. -/
def foundLater (records : List DnsRecord) : Served where
  now := 10000000000
  resolved :=
    { host := "cdn.example"
      addresses := [{ address := .fromV4 10 1 2 3, via := some {} }]
      ttl := 300
      resolverUsed := "system (cached)" }
  origin := { records }

/-- A CNAME record of five seconds leads to an address of 300. Ten seconds
later the answer is still served; and the TTL of any answer is as it was. -/
theorem cname_outlived :
    (¬ ∀ acts s, run ClockedResolver.step {} acts = some s → ∀ served ∈ s.served, served.Lives) ∧
      ¬ ∀ acts s, run ClockedResolver.step {} acts = some s →
        ∀ served ∈ s.served, served.SaysWhatRemains := by
  constructor
  · intro h
    have hrun : (run ClockedResolver.step {} (storeThenServe [cnameRecord 5, aRecord 300]
        10000000000)).bind (·.served.head?) = some (foundLater [cnameRecord 5, aRecord 300]) := by
      decide +kernel
    obtain ⟨s, hs, hhead⟩ := Option.bind_eq_some_iff.mp hrun
    exact absurd (h _ s hs _ (List.mem_of_head? hhead) (cnameRecord 5) List.mem_cons_self)
      (by decide)
  · intro h
    have hrun : (run ClockedResolver.step {} (storeThenServe [aRecord 300] 10000000000)).bind
        (·.served.head?) = some (foundLater [aRecord 300]) := by
      decide +kernel
    obtain ⟨s, hs, hhead⟩ := Option.bind_eq_some_iff.mp hrun
    exact absurd (h _ s hs _ (List.mem_of_head? hhead) (aRecord 300) List.mem_cons_self)
      (by decide)

end NovaVpn.Net
