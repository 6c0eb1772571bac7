import Mathlib.Data.List.AList
import NovaVpn.Framework.Machine
import NovaVpn.Networking.IpAddress

/-!
# The resolver

`Networking/Resolver.cpp`: `resolve` looks in the cache, reads the binding of
its scope, asks for the addresses of each family and stores the answer.
`setTunnelBinding` installs a binding and then flushes the cache. Only the
cache and the binding are under the mutex, so the calls of other threads come
between any two of these steps; what the network and the clock answer is left
open. An address carries the binding of the query that gave it.

A query that is under way while the binding changes stores its answer after
the flush, where the next call finds it (`answer_outlives_binding`).
`answers_current`: if no answer is stored after its binding was replaced, the
addresses that a call returns come from bindings that were installed while it
ran.
-/

namespace NovaVpn.Net

open NovaVpn.Framework

inductive ResolutionScope where
  | underlay
  | tunnel
  | system
  deriving DecidableEq, Repr

structure ResolveOptions where
  scope : ResolutionScope := .system
  family : Option AddressFamily := none
  noCache : Bool := false
  deriving DecidableEq, Repr

/-- Where the queries of a scope are sent. -/
structure ScopeBinding where
  interfaceIndex : UInt32 := 0
  servers : List IpAddress := []
  deriving DecidableEq, Repr

/-- An address, and the binding of the query that gave it; a literal has none. -/
structure Answer where
  address : IpAddress
  via : Option ScopeBinding
  deriving DecidableEq, Repr

structure ResolvedHost where
  host : String
  addresses : List Answer
  /-- In seconds. -/
  ttl : Nat
  resolverUsed : String
  deriving DecidableEq, Repr

/-- `kLiteralTtl`. -/
def literalTtl : Nat := 86400

/-- The literal fast path, and the check of the name. -/
def resolveLiteral (host : String) (options : ResolveOptions) : Option (Result ResolvedHost) :=
  match IpAddress.tryParse host.toList with
  | some literal =>
    if options.family.any fun family => family ≠ literal.family then
      some (.error (Err.invalidArgument
        ("literal address " ++ host ++ " does not match the requested family")))
    else
      some (.ok
        { host, addresses := [{ address := literal, via := none }], ttl := literalTtl,
          resolverUsed := "literal" })
  | none =>
    if isValidHostName host.toList then none
    else some (.error (Err.invalidArgument ("not a resolvable host name: " ++ host)))

/-- A name is looked up, unless it is not a valid one. -/
theorem resolveLiteral_of_name {host : String} (h : IpAddress.tryParse host.toList = none)
    (options : ResolveOptions) : resolveLiteral host options = none ∨
      ∃ status, resolveLiteral host options = some (.error status) := by
  simp only [resolveLiteral, h]
  split
  · exact Or.inl rfl
  · exact Or.inr ⟨_, rfl⟩

namespace ResolutionScope

/-- The number of a scope. -/
def digit : ResolutionScope → Char
  | underlay => '0'
  | tunnel => '1'
  | system => '2'

def name : ResolutionScope → String
  | underlay => "underlay"
  | tunnel => "tunnel"
  | system => "system"

end ResolutionScope

/-- The family in a cache key. -/
def familyKey : Option AddressFamily → String
  | some .ipv4 => "ipv4"
  | some .ipv6 => "ipv6"
  | none => "any"

def makeCacheKey (host : String) (options : ResolveOptions) : String :=
  String.ofList (Str.toLower host.toList ++ '|' :: options.scope.digit :: '|' ::
    (familyKey options.family).toList)

def describeBinding (scope : ResolutionScope) (binding : ScopeBinding) : String :=
  scope.name ++
    (if binding.interfaceIndex ≠ 0 then " if=" ++ toString binding.interfaceIndex.toNat else "") ++
    match binding.servers with
    | [] => ""
    | [server] => " via " ++ server.toString
    | server :: others => " via " ++ server.toString ++ "+" ++ toString others.length

/-! ## Queries -/

/-- What one `queryOne` answers: the records with the time each may be kept. -/
abbrev QueryAnswer := Result (List (IpAddress × UInt32))

/-- What the queries of a call have given so far. -/
structure Gathered where
  addresses : List Answer := []
  minTtl : UInt32 := 0xFFFFFFFF
  lastError : Status := .ok
  deriving DecidableEq, Repr

def Gathered.add (g : Gathered) (binding : ScopeBinding) : QueryAnswer → Gathered
  | .error status => { g with lastError := status }
  | .ok records =>
    { g with
      addresses := g.addresses ++ records.map fun r => { address := r.1, via := some binding }
      minTtl := records.foldl (fun ttl r => min ttl r.2) g.minTtl }

/-- The families that are asked for, in order. -/
def wantedFamilies (options : ResolveOptions) : List AddressFamily :=
  [AddressFamily.ipv4, .ipv6].filter fun family => options.family.all fun wanted => wanted = family

/-- The answer of the queries, if there is one. -/
def Gathered.resolved (g : Gathered) (host : String) (options : ResolveOptions)
    (binding : ScopeBinding) : Result ResolvedHost :=
  if g.addresses.isEmpty then
    let lastError :=
      if g.lastError.isOk then Err.notFound ("no address records for " ++ host) else g.lastError
    .error (lastError.withContext ("resolving " ++ host))
  else
    .ok
      { host
        addresses := g.addresses
        ttl := if g.minTtl = 0xFFFFFFFF then 0 else g.minTtl.toNat
        resolverUsed := describeBinding options.scope binding }

/-! ## The cache -/

/-- `SteadyClock`, in its ticks of a nanosecond. -/
abbrev SteadyTime := Nat

structure CacheEntry where
  resolved : ResolvedHost
  expires : SteadyTime
  deriving DecidableEq, Repr

abbrev ResolverCache := AList fun _ : String => CacheEntry

/-- The entry under a key, and the cache without it if it has expired. -/
def cacheLookup (key : String) (now : SteadyTime) (cache : ResolverCache) :
    ResolverCache × Option ResolvedHost :=
  match cache.lookup key with
  | none => (cache, none)
  | some entry =>
    if now ≥ entry.expires then (cache.erase key, none)
    else
      (cache, some
        { entry.resolved with resolverUsed := entry.resolved.resolverUsed ++ " (cached)" })

def cacheStore (key : String) (resolved : ResolvedHost) (now : SteadyTime)
    (cache : ResolverCache) : ResolverCache :=
  (if cache.entries.length ≥ 4096 then ∅ else cache).insert key
    { resolved, expires := now + resolved.ttl * 1000000000 }

/-! ## Calls from several threads -/

/-- Where a call of `resolve` stands. -/
inductive ResolvePhase where
  /-- Before the cache lookup. -/
  | start
  /-- Before `bindingFor`. -/
  | unbound
  /-- Before the query for the first of the families left. -/
  | querying (binding : ScopeBinding) (left : List AddressFamily) (gathered : Gathered)
  /-- Before the cache store. -/
  | storing (binding : ScopeBinding) (resolved : ResolvedHost)
  | returned (answer : Result ResolvedHost)
  deriving DecidableEq

def ResolvePhase.running : ResolvePhase → Bool
  | .returned _ => false
  | _ => true

/-- A call, with the bindings that have been installed while it ran, and
whether every `setTunnelBinding` had returned when it started. -/
structure Resolve where
  host : String
  options : ResolveOptions
  phase : ResolvePhase
  quiet : Bool
  seen : List (Option ScopeBinding)
  deriving DecidableEq

structure Resolver where
  tunnelBinding : Option ScopeBinding := none
  cache : ResolverCache := ∅
  resolves : Nat → Option Resolve := fun _ => none
  /-- The calls of `setTunnelBinding` before their flush. -/
  setters : List Nat := []

inductive ResolverAct where
  | resolve (call : Nat) (host : String) (options : ResolveOptions)
  | lookup (call : Nat) (now : SteadyTime)
  /-- `underlay`: what the network monitor answers, if it is asked. -/
  | bind (call : Nat) (underlay : Result ScopeBinding)
  | query (call : Nat) (answer : QueryAnswer)
  | store (call : Nat) (now : SteadyTime)
  | assign (setter : Nat) (binding : Option ScopeBinding)
  | flush (setter : Nat)
  | flushCache

def bindingFor (scope : ResolutionScope) (tunnelBinding : Option ScopeBinding)
    (underlay : Result ScopeBinding) : Result ScopeBinding :=
  match scope with
  | .system => .ok {}
  | .tunnel =>
    match tunnelBinding with
    | none =>
      .error (Err.invalidState "tunnel-scoped resolution requested but no tunnel is bound")
    | some binding => .ok binding
  | .underlay => underlay

/-- What follows the last query. -/
def concluded (host : String) (options : ResolveOptions) (binding : ScopeBinding) (g : Gathered) :
    ResolvePhase :=
  match g.resolved host options binding with
  | .error status => .returned (.error status)
  | .ok resolved =>
    if !options.noCache && resolved.ttl > 0 then .storing binding resolved
    else .returned (.ok resolved)

/-- A binding is installed while the call runs. -/
def Resolve.observe (binding : Option ScopeBinding) (r : Resolve) : Resolve :=
  if r.phase.running then { r with seen := binding :: r.seen } else r

namespace Resolver

def setResolve (s : Resolver) (call : Nat) (r : Resolve) : Resolver :=
  { s with resolves := Function.update s.resolves call (some r) }

def setPhase (s : Resolver) (call : Nat) (r : Resolve) (phase : ResolvePhase) : Resolver :=
  s.setResolve call { r with phase }

/-- The next step of a call. -/
def advance (s : Resolver) (call : Nat) (r : Resolve) : ResolverAct → Option Resolver
  | .lookup _ now =>
    match r.phase with
    | .start =>
      if r.options.noCache then some (s.setPhase call r .unbound)
      else
        let looked := cacheLookup (makeCacheKey r.host r.options) now s.cache
        some ({ s with cache := looked.1 }.setPhase call r
          (match looked.2 with
          | some hit => .returned (.ok hit)
          | none => .unbound))
    | _ => none
  | .bind _ underlay =>
    match r.phase with
    | .unbound =>
      some (s.setPhase call r
        (match bindingFor r.options.scope s.tunnelBinding underlay with
        | .error status => .returned (.error status)
        | .ok binding => .querying binding (wantedFamilies r.options) {}))
    | _ => none
  | .query _ answer =>
    match r.phase with
    | .querying binding (_ :: left) gathered =>
      let gathered := gathered.add binding answer
      some (s.setPhase call r
        (if left.isEmpty then concluded r.host r.options binding gathered
        else .querying binding left gathered))
    | _ => none
  | .store _ now =>
    match r.phase with
    | .storing _ resolved =>
      some ({ s with cache := cacheStore (makeCacheKey r.host r.options) resolved now s.cache
        }.setPhase call r (.returned (.ok resolved)))
    | _ => none
  | _ => none

def step (s : Resolver) (act : ResolverAct) : Option Resolver :=
  match act with
  | .resolve call host options =>
    match s.resolves call with
    | some _ => none
    | none =>
      some (s.setResolve call
        { host, options
          phase :=
            match resolveLiteral host options with
            | some answer => .returned answer
            | none => .start
          quiet := s.setters.isEmpty
          seen := [s.tunnelBinding] })
  | .lookup call _ | .bind call _ | .query call _ | .store call _ =>
    (s.resolves call).bind fun r => s.advance call r act
  | .assign setter binding =>
    if setter ∈ s.setters then none
    else
      some { s with
        tunnelBinding := binding
        setters := setter :: s.setters
        resolves := fun call => (s.resolves call).map (Resolve.observe binding) }
  | .flush setter =>
    if setter ∈ s.setters then some { s with cache := ∅, setters := s.setters.erase setter } else none
  | .flushCache => some { s with cache := ∅ }

end Resolver

/-! ## What a step does -/

section Cache

variable {key key' : String} {now : SteadyTime} {cache : ResolverCache}

/-- A lookup adds no entries. -/
theorem lookup_of_cacheLookup {key key' : String} {now : SteadyTime} {cache : ResolverCache}
    {entry : CacheEntry} (h : (cacheLookup key now cache).1.lookup key' = some entry) :
    cache.lookup key' = some entry := by
  unfold cacheLookup at h
  split at h
  · exact h
  · split at h
    · by_cases hkey : key' = key
      · rw [hkey, AList.lookup_erase] at h
        cases h
      · rwa [AList.lookup_erase_ne hkey] at h
    · exact h

/-- What is found is an entry that has not expired. -/
theorem cacheLookup_hit {hit : ResolvedHost} (h : (cacheLookup key now cache).2 = some hit) :
    ∃ entry, cache.lookup key = some entry ∧ now < entry.expires ∧
      hit = { entry.resolved with resolverUsed := entry.resolved.resolverUsed ++ " (cached)" } := by
  unfold cacheLookup at h
  split at h
  · cases h
  next entry hentry =>
    split at h
    · cases h
    next hnow =>
      cases h
      exact ⟨entry, hentry, Nat.lt_of_not_le hnow, rfl⟩

/-- After a store there is one entry more, and perhaps no other is left. -/
theorem cacheStore_cases {resolved : ResolvedHost} {entry : CacheEntry}
    (h : (cacheStore key resolved now cache).lookup key' = some entry) :
    (key' = key ∧ entry = { resolved, expires := now + resolved.ttl * 1000000000 }) ∨
      key' ≠ key ∧ cache.lookup key' = some entry := by
  unfold cacheStore at h
  by_cases hkey : key' = key
  · rw [hkey, AList.lookup_insert, Option.some.injEq] at h
    exact Or.inl ⟨hkey, h.symm⟩
  · rw [AList.lookup_insert_ne hkey] at h
    split at h
    · cases h
    · exact Or.inr ⟨hkey, h⟩

end Cache

namespace Resolver

variable {s s' : Resolver} {call : Nat}

theorem query_cases {answer : QueryAnswer} (hs : s.step (.query call answer) = some s') :
    ∃ r binding family left g, s.resolves call = some r ∧
      r.phase = .querying binding (family :: left) g ∧
      s' = s.setPhase call r (if left.isEmpty then
          concluded r.host r.options binding (g.add binding answer)
        else .querying binding left (g.add binding answer)) := by
  obtain ⟨r, hr, hs⟩ := Option.bind_eq_some_iff.mp hs
  simp only [advance] at hs
  split at hs
  next binding family left g hphase =>
    cases hs
    exact ⟨r, binding, family, left, g, hr, hphase, rfl⟩
  next => cases hs

theorem store_cases {now : SteadyTime} (hs : s.step (.store call now) = some s') :
    ∃ r binding resolved, s.resolves call = some r ∧ r.phase = .storing binding resolved ∧
      s' = { s with cache := cacheStore (makeCacheKey r.host r.options) resolved now s.cache
        }.setPhase call r (.returned (.ok resolved)) := by
  obtain ⟨r, hr, hs⟩ := Option.bind_eq_some_iff.mp hs
  simp only [advance] at hs
  split at hs
  next binding resolved hphase =>
    cases hs
    exact ⟨r, binding, resolved, hr, hphase, rfl⟩
  next => cases hs

end Resolver

/-! ## Keys -/

theorem dropWhile_append_cons {l rest : List Char} (h : '|' ∉ l) :
    (l ++ '|' :: rest).dropWhile (· ≠ '|') = '|' :: rest := by
  induction l with
  | nil => rfl
  | cons c l ih =>
    rw [List.mem_cons, not_or] at h
    rw [List.cons_append, List.dropWhile_cons_of_pos (by simpa using Ne.symm h.1), ih h.2]

/-- Calls with another scope use other keys. -/
theorem scope_of_makeCacheKey {host host' : String} {options options' : ResolveOptions}
    (h : makeCacheKey host options = makeCacheKey host' options') :
    options.scope = options'.scope := by
  have hfamily : ∀ family : Option AddressFamily, '|' ∉ (familyKey family).toList.reverse := by
    intro family
    obtain _ | family := family
    · decide
    · cases family <;> decide
  -- read from the end, a key is the family, then the scope
  have hkey : ∀ (host : String) (options : ResolveOptions),
      (makeCacheKey host options).toList.reverse.dropWhile (· ≠ '|') =
        '|' :: options.scope.digit :: '|' :: (Str.toLower host.toList).reverse := by
    intro host options
    simp only [makeCacheKey, String.toList_ofList, List.reverse_append, List.reverse_cons,
      List.append_assoc, List.cons_append, List.nil_append]
    exact dropWhile_append_cons (hfamily options.family)
  have hdigit : options.scope.digit = options'.scope.digit := by
    have hdropped := hkey host options
    rw [h, hkey host' options'] at hdropped
    exact (List.cons.inj (List.cons.inj hdropped).2).1.symm
  revert hdigit
  cases options.scope <;> cases options'.scope <;> decide

/-! ## Bindings -/

/-- There are addresses, and all come from queries under bindings of the list. -/
def Under (seen : List (Option ScopeBinding)) (addresses : List Answer) : Prop :=
  addresses ≠ [] ∧ ∀ a ∈ addresses, ∃ b, a.via = some b ∧ some b ∈ seen

/-- So do those of every entry that a call with scope `Tunnel` can find. -/
def CacheUnder (seen : List (Option ScopeBinding)) (cache : ResolverCache) : Prop :=
  ∀ host options entry, options.scope = .tunnel →
    cache.lookup (makeCacheKey host options) = some entry → Under seen entry.resolved.addresses

section

variable {seen seen' : List (Option ScopeBinding)} {cache : ResolverCache}

theorem Under.mono {addresses : List Answer} (h : Under seen addresses)
    (hsub : ∀ b ∈ seen, b ∈ seen') : Under seen' addresses := by
  refine ⟨h.1, fun a ha => ?_⟩
  obtain ⟨b, hvia, hb⟩ := h.2 a ha
  exact ⟨b, hvia, hsub _ hb⟩

theorem CacheUnder.mono (h : CacheUnder seen cache) (hsub : ∀ b ∈ seen, b ∈ seen') :
    CacheUnder seen' cache :=
  fun host options entry hscope hentry => (h host options entry hscope hentry).mono hsub

theorem cacheUnder_empty (seen : List (Option ScopeBinding)) : CacheUnder seen ∅ := by
  intro host options entry _ hentry
  cases hentry

theorem CacheUnder.lookup (h : CacheUnder seen cache) (key : String) (now : SteadyTime) :
    CacheUnder seen (cacheLookup key now cache).1 :=
  fun host options entry hscope hentry => h host options entry hscope (lookup_of_cacheLookup hentry)

/-- What a call finds. -/
theorem CacheUnder.hit (h : CacheUnder seen cache) {host : String} {options : ResolveOptions}
    (hscope : options.scope = .tunnel) {now : SteadyTime} {hit : ResolvedHost}
    (hhit : (cacheLookup (makeCacheKey host options) now cache).2 = some hit) :
    Under seen hit.addresses := by
  obtain ⟨entry, hentry, -, rfl⟩ := cacheLookup_hit hhit
  exact h host options entry hscope hentry

/-- An answer is stored, under the installed binding if it can be found by
calls with scope `Tunnel`. -/
theorem CacheUnder.store (h : CacheUnder seen cache) {host : String} {options : ResolveOptions}
    {resolved : ResolvedHost} (hresolved : options.scope = .tunnel → Under seen resolved.addresses)
    (now : SteadyTime) :
    CacheUnder seen (cacheStore (makeCacheKey host options) resolved now cache) := by
  intro host' options' entry hscope hentry
  obtain ⟨hkey, rfl⟩ | ⟨-, hentry⟩ := cacheStore_cases hentry
  · exact hresolved ((scope_of_makeCacheKey hkey).symm.trans hscope)
  · exact h host' options' entry hscope hentry

end

/-! ## The invariant -/

namespace ResolvePhase

/-- What a call has gathered comes from the one binding it uses. -/
def Pinned : ResolvePhase → Prop
  | querying binding _ gathered => ∀ a ∈ gathered.addresses, a.via = some binding
  | storing binding resolved => Under [some binding] resolved.addresses
  | _ => True

/-- The binding that is used, or was, is one of the list. -/
def Within (seen : List (Option ScopeBinding)) : ResolvePhase → Prop
  | querying binding _ _ => some binding ∈ seen
  | storing binding _ => some binding ∈ seen
  | returned (.ok resolved) => Under seen resolved.addresses
  | _ => True

theorem Within.mono {seen seen' : List (Option ScopeBinding)} {p : ResolvePhase} (h : p.Within seen)
    (hsub : ∀ b ∈ seen, b ∈ seen') : p.Within seen' := by
  match p, h with
  | start, h => exact h
  | unbound, h => exact h
  | querying binding left gathered, h => exact hsub _ h
  | storing binding resolved, h => exact hsub _ h
  | returned (.ok resolved), h => exact Under.mono h hsub
  | returned (.error status), h => exact h

end ResolvePhase

theorem Gathered.pinned_add {g : Gathered} {binding : ScopeBinding}
    (h : ∀ a ∈ g.addresses, a.via = some binding) (answer : QueryAnswer) :
    ∀ a ∈ (g.add binding answer).addresses, a.via = some binding := by
  cases answer with
  | error status => exact h
  | ok records =>
    intro a ha
    rcases List.mem_append.mp ha with ha | ha
    · exact h a ha
    · obtain ⟨record, -, rfl⟩ := List.mem_map.mp ha
      rfl

theorem Gathered.under_resolved {g : Gathered} {binding : ScopeBinding}
    (h : ∀ a ∈ g.addresses, a.via = some binding) {host : String} {options : ResolveOptions}
    {resolved : ResolvedHost} (hresolved : g.resolved host options binding = .ok resolved) :
    Under [some binding] resolved.addresses := by
  unfold Gathered.resolved at hresolved
  split at hresolved
  · cases hresolved
  · rename_i hne
    cases hresolved
    refine ⟨by simpa using hne, fun a ha => ⟨binding, h a ha, List.mem_singleton.mpr rfl⟩⟩

theorem concluded_sound {g : Gathered} {binding : ScopeBinding}
    (h : ∀ a ∈ g.addresses, a.via = some binding) (host : String) (options : ResolveOptions) :
    (concluded host options binding g).Pinned ∧
      ∀ seen, some binding ∈ seen → (concluded host options binding g).Within seen := by
  unfold concluded
  cases hresolved : g.resolved host options binding with
  | error status => exact ⟨trivial, fun _ _ => trivial⟩
  | ok resolved =>
    have hunder := Gathered.under_resolved h hresolved
    dsimp only
    split
    · exact ⟨hunder, fun _ hseen => hseen⟩
    · refine ⟨trivial, fun seen hseen => hunder.mono fun b hb => ?_⟩
      rw [List.mem_singleton.mp hb]
      exact hseen

/-- The calls that the property is about: with scope `Tunnel`, for a name, and
started when every `setTunnelBinding` had returned. -/
structure Resolve.Concerned (r : Resolve) : Prop where
  quiet : r.quiet = true
  scope : r.options.scope = .tunnel
  name : IpAddress.tryParse r.host.toList = none

/-- What such a call can still find or use was installed while it ran. -/
structure Tracked (s : Resolver) (r : Resolve) : Prop where
  installed : r.phase.running = true → s.tunnelBinding ∈ r.seen
  cached : r.phase.running = true → CacheUnder r.seen s.cache
  within : r.phase.Within r.seen

structure ResolverInv (s : Resolver) : Prop where
  cached : s.setters = [] → CacheUnder [s.tunnelBinding] s.cache
  pinned : ∀ call r, s.resolves call = some r → r.phase.Pinned
  tracked : ∀ call r, s.resolves call = some r → r.Concerned → Tracked s r

/-- No answer to a call with scope `Tunnel` is stored after its binding was
replaced. -/
def storesInstalled (s : Resolver) : ResolverAct → Bool
  | .store call _ =>
    (s.resolves call).all fun r =>
      match r.phase with
      | .storing binding _ => r.options.scope ≠ .tunnel || s.tunnelBinding = some binding
      | _ => true
  | _ => true

namespace ResolverInv

variable {s s' : Resolver} {call : Nat} {r : Resolve}

/-- A call that runs moves on, and may change the cache. -/
theorem setPhase (h : ResolverInv s) (hr : s.resolves call = some r)
    (hrunning : r.phase.running = true) {cache : ResolverCache}
    (hcache : ∀ seen, s.tunnelBinding ∈ seen → CacheUnder seen s.cache → CacheUnder seen cache)
    {phase : ResolvePhase} (hpinned : phase.Pinned)
    (hwithin : r.Concerned → Tracked s r → phase.Within r.seen) :
    ResolverInv ({ s with cache }.setPhase call r phase) := by
  refine ⟨fun hquiet => hcache _ (List.mem_singleton.mpr rfl) (h.cached hquiet),
    fun call' r' hr' => ?_, fun call' r' hr' hconcerned => ?_⟩
  · rcases update_some_cases hr' with ⟨-, rfl⟩ | ⟨-, hr'⟩
    · exact hpinned
    · exact h.pinned call' r' hr'
  · rcases update_some_cases hr' with ⟨-, rfl⟩ | ⟨-, hr'⟩
    · have hc : r.Concerned := ⟨hconcerned.quiet, hconcerned.scope, hconcerned.name⟩
      have ht := h.tracked call r hr hc
      exact ⟨fun _ => ht.installed hrunning,
        fun _ => hcache _ (ht.installed hrunning) (ht.cached hrunning), hwithin hc ht⟩
    · have ht := h.tracked call' r' hr' hconcerned
      exact ⟨ht.installed, fun hrun => hcache _ (ht.installed hrun) (ht.cached hrun), ht.within⟩

theorem lookup (h : ResolverInv s) {now : SteadyTime} (hr : s.resolves call = some r)
    (hs : s.advance call r (.lookup call now) = some s') : ResolverInv s' := by
  simp only [Resolver.advance] at hs
  split at hs
  · rename_i hphase
    have hrunning : r.phase.running = true := by rw [hphase]; rfl
    split at hs
    · cases hs
      exact h.setPhase hr hrunning (fun _ _ hcache => hcache) trivial fun _ _ => trivial
    · cases hs
      refine h.setPhase hr hrunning (fun _ _ hcache => hcache.lookup _ now) ?_ fun hc ht => ?_
      · split <;> trivial
      · split
        · rename_i hit hhit
          exact (ht.cached hrunning).hit hc.scope hhit
        · trivial
  · cases hs

theorem bind (h : ResolverInv s) {underlay : Result ScopeBinding} (hr : s.resolves call = some r)
    (hs : s.advance call r (.bind call underlay) = some s') : ResolverInv s' := by
  simp only [Resolver.advance] at hs
  split at hs
  · rename_i hphase
    have hrunning : r.phase.running = true := by rw [hphase]; rfl
    cases hs
    refine h.setPhase hr hrunning (fun _ _ hcache => hcache) ?_ fun hc ht => ?_
    · split
      · trivial
      · exact fun a ha => absurd ha List.not_mem_nil
    · split
      · trivial
      · rename_i binding hbinding
        -- the binding of scope `Tunnel` is the one installed now
        have hinstalled : s.tunnelBinding = some binding := by
          rw [hc.scope] at hbinding
          simp only [bindingFor] at hbinding
          split at hbinding
          · cases hbinding
          · rename_i hsome
            cases hbinding
            exact hsome
        show some binding ∈ r.seen
        rw [← hinstalled]
        exact ht.installed hrunning
  · cases hs

theorem query (h : ResolverInv s) {answer : QueryAnswer}
    (hs : s.step (.query call answer) = some s') : ResolverInv s' := by
  obtain ⟨r, binding, family, left, gathered, hr, hphase, rfl⟩ := Resolver.query_cases hs
  have hrunning : r.phase.running = true := by rw [hphase]; rfl
  have hpinned := h.pinned call r hr
  rw [hphase] at hpinned
  have hadded := Gathered.pinned_add hpinned answer
  have hbinding : ∀ ht : Tracked s r, some binding ∈ r.seen := by
    intro ht
    have hwithin := ht.within
    rw [hphase] at hwithin
    exact hwithin
  refine h.setPhase hr hrunning (fun _ _ hcache => hcache) ?_ fun _ ht => ?_
  · split
    · exact (concluded_sound hadded r.host r.options).1
    · exact hadded
  · split
    · exact (concluded_sound hadded r.host r.options).2 _ (hbinding ht)
    · exact hbinding ht

theorem store (h : ResolverInv s) {now : SteadyTime}
    (hok : storesInstalled s (.store call now) = true)
    (hs : s.step (.store call now) = some s') : ResolverInv s' := by
  obtain ⟨r, binding, resolved, hr, hphase, rfl⟩ := Resolver.store_cases hs
  have hrunning : r.phase.running = true := by rw [hphase]; rfl
  have hpinned := h.pinned call r hr
  rw [hphase] at hpinned
  have hinstalled : r.options.scope = .tunnel → s.tunnelBinding = some binding := by
    intro hscope
    simpa [storesInstalled, hr, hphase, hscope] using hok
  refine h.setPhase hr hrunning (fun seen hseen hcache => ?_) trivial fun _ ht => ?_
  · refine hcache.store (fun hscope => hpinned.mono fun b hb => ?_) now
    rw [List.mem_singleton.mp hb, ← hinstalled hscope]
    exact hseen
  · have hwithin := ht.within
    rw [hphase] at hwithin
    refine Under.mono hpinned fun b hb => ?_
    rw [List.mem_singleton.mp hb]
    exact hwithin

/-- A call starts with what is installed. -/
theorem start (h : ResolverInv s) (hnone : s.resolves call = none) (host : String)
    (options : ResolveOptions) (hs : s.step (.resolve call host options) = some s') :
    ResolverInv s' := by
  simp only [Resolver.step, hnone, Option.some.injEq] at hs
  subst hs
  refine ⟨h.cached, fun call' r' hr' => ?_, fun call' r' hr' hconcerned => ?_⟩
  all_goals rcases update_some_cases hr' with ⟨-, rfl⟩ | ⟨-, hr'⟩
  · cases resolveLiteral host options <;> trivial
  · exact h.pinned call' r' hr'
  · have hquiet : s.setters = [] := List.isEmpty_iff.mp hconcerned.quiet
    refine ⟨fun _ => List.mem_singleton.mpr rfl, fun _ => h.cached hquiet, ?_⟩
    rcases resolveLiteral_of_name hconcerned.name options with hnone | ⟨status, herror⟩
    · rw [hnone]
      trivial
    · rw [herror]
      trivial
  · have ht := h.tracked call' r' hr' hconcerned
    exact ⟨ht.installed, ht.cached, ht.within⟩

theorem assign (h : ResolverInv s) (setter : Nat) (binding : Option ScopeBinding) :
    ResolverInv { s with
      tunnelBinding := binding
      setters := setter :: s.setters
      resolves := fun call => (s.resolves call).map (Resolve.observe binding) } := by
  refine ⟨fun hnil => absurd hnil (List.cons_ne_nil _ _), fun call r hr => ?_,
    fun call r hr hconcerned => ?_⟩
  all_goals
    obtain ⟨q, hq, rfl⟩ := Option.map_eq_some_iff.mp hr
    unfold Resolve.observe at *
  · split
    · exact h.pinned call q hq
    · exact h.pinned call q hq
  · split at hconcerned
    next hrunning =>
      rw [if_pos hrunning]
      have ht := h.tracked call q hq ⟨hconcerned.quiet, hconcerned.scope, hconcerned.name⟩
      exact ⟨fun _ => List.mem_cons_self,
        fun _ => (ht.cached hrunning).mono fun _ hb => List.mem_cons_of_mem _ hb,
        ht.within.mono fun _ hb => List.mem_cons_of_mem _ hb⟩
    next hrunning =>
      rw [if_neg hrunning]
      have ht := h.tracked call q hq hconcerned
      exact ⟨fun hrun => absurd hrun hrunning, fun hrun => absurd hrun hrunning, ht.within⟩

theorem flush (h : ResolverInv s) (setters : List Nat) :
    ResolverInv { s with cache := ∅, setters } := by
  refine ⟨fun _ => cacheUnder_empty _, h.pinned, fun call r hr hconcerned => ?_⟩
  have ht := h.tracked call r hr hconcerned
  exact ⟨ht.installed, fun _ => cacheUnder_empty _, ht.within⟩

theorem step (h : ResolverInv s) {act : ResolverAct} (hok : storesInstalled s act = true)
    (hs : s.step act = some s') : ResolverInv s' := by
  cases act with
  | resolve call host options =>
    cases hnone : s.resolves call with
    | some r => simp only [Resolver.step, hnone, reduceCtorEq] at hs
    | none => exact h.start hnone host options hs
  | lookup call now =>
    obtain ⟨r, hr, hs⟩ := Option.bind_eq_some_iff.mp hs
    exact h.lookup hr hs
  | bind call underlay =>
    obtain ⟨r, hr, hs⟩ := Option.bind_eq_some_iff.mp hs
    exact h.bind hr hs
  | query call answer => exact h.query hs
  | store call now => exact h.store hok hs
  | assign setter binding =>
    simp only [Resolver.step] at hs
    split at hs
    · cases hs
    · cases hs
      exact h.assign setter binding
  | flush setter =>
    simp only [Resolver.step] at hs
    split at hs
    · cases hs
      exact h.flush _
    · cases hs
  | flushCache =>
    cases hs
    exact h.flush s.setters

end ResolverInv

/-! ## Answers and bindings -/

/-- The addresses that the call returns are those of queries under bindings
that were installed while it ran. -/
def Resolve.Current (r : Resolve) : Prop :=
  ∀ resolved, r.phase = .returned (.ok resolved) →
    ∀ a ∈ resolved.addresses, ∀ b, a.via = some b → some b ∈ r.seen

/-- The call returns no answer if there was no binding while it ran. -/
def Resolve.FailsUnbound (r : Resolve) : Prop :=
  (∀ b ∈ r.seen, b = none) → ∀ resolved, r.phase ≠ .returned (.ok resolved)

/-- In every run in which no answer is stored after its binding was replaced:
a call with scope `Tunnel` for a name, started when every `setTunnelBinding`
had returned, returns only addresses found under bindings that were installed
while it ran, and nothing if there were none. -/
theorem answers_current {acts : List ResolverAct} {s : Resolver}
    (hok : RunMeets Resolver.step (fun s act => storesInstalled s act = true) {} acts)
    (hr : run Resolver.step {} acts = some s) {call : Nat} {r : Resolve}
    (hcall : s.resolves call = some r) (hconcerned : r.Concerned) :
    r.Current ∧ r.FailsUnbound := by
  have hinit : ResolverInv {} := by
    refine ⟨fun _ => cacheUnder_empty _, fun call r h => ?_, fun call r h => ?_⟩
    · cases h
    · cases h
  have hinv := run_invariant (fun _ _ _ h hok hs => h.step hok hs) hinit hok hr
  have hwithin := (hinv.tracked call r hcall hconcerned).within
  constructor
  · intro resolved hphase a ha b hb
    rw [hphase] at hwithin
    obtain ⟨b', hvia, hmem⟩ := hwithin.2 a ha
    cases hb.symm.trans hvia
    exact hmem
  · intro hunbound resolved hphase
    rw [hphase] at hwithin
    obtain ⟨a, ha⟩ := List.exists_mem_of_ne_nil _ hwithin.1
    obtain ⟨b, -, hmem⟩ := hwithin.2 a ha
    cases hunbound _ hmem

/-- A tunnel's binding. -/
def tunnelAt (interfaceIndex : UInt32) : ScopeBinding where
  interfaceIndex := interfaceIndex
  servers := [.fromV4 10 8 0 1]

def tunnelV4 : ResolveOptions where
  scope := .tunnel
  family := some .ipv4

/-- `setTunnelBinding`, undisturbed. -/
def setTunnelBinding (binding : Option ScopeBinding) : List ResolverAct :=
  [.assign 0 binding, .flush 0]

/-- A call up to its query. -/
def resolveUpTo (call : Nat) (host : String) : List ResolverAct :=
  [.resolve call host tunnelV4, .lookup call 0, .bind call (.ok {})]

/-- Its query and what follows. -/
def resolveFrom (call : Nat) : List ResolverAct :=
  [.query call (.ok [(.fromV4 10 1 2 3, 300)]), .store call 0]

/-- A call that starts when both have returned, and finds the answer. -/
def resolveCached (call : Nat) (host : String) : List ResolverAct :=
  [.resolve call host tunnelV4, .lookup call 1]

def callAfter (acts : List ResolverAct) (call : Nat) : Option Resolve :=
  (run Resolver.step {} acts).bind fun s => s.resolves call

/-- The call with the answer that was found under the first tunnel's binding. -/
def foundCached (host : String) (installed : ScopeBinding) : Resolve where
  host := host
  options := tunnelV4
  phase := .returned (.ok
    { host, addresses := [{ address := .fromV4 10 1 2 3, via := some (tunnelAt 7) }], ttl := 300,
      resolverUsed := "tunnel if=7 via 10.8.0.1 (cached)" })
  quiet := true
  seen := [some installed]

/-- The answer is stored, then found. -/
def storedThenFound : List ResolverAct :=
  setTunnelBinding (some (tunnelAt 7)) ++ resolveUpTo 0 "a.example" ++ resolveFrom 0 ++
    resolveCached 1 "a.example"

theorem answers_current_found : ∃ s, run Resolver.step {} storedThenFound = some s ∧
    s.resolves 1 = some (foundCached "a.example" (tunnelAt 7)) ∧
    (foundCached "a.example" (tunnelAt 7)).Current ∧
    (foundCached "a.example" (tunnelAt 7)).FailsUnbound := by
  have hcall : callAfter storedThenFound 1 = some (foundCached "a.example" (tunnelAt 7)) := by
    decide +kernel
  obtain ⟨s, hs, hr⟩ := Option.bind_eq_some_iff.mp hcall
  have hok : RunMeets Resolver.step (fun s act => storesInstalled s act = true) {}
      storedThenFound := by decide +kernel
  exact ⟨s, hs, hr, answers_current hok hs hr ⟨rfl, rfl, by decide +kernel⟩⟩

/-- A query is under way while the next binding is installed. -/
def storedAfterFlush : List ResolverAct :=
  setTunnelBinding (some (tunnelAt 7)) ++ resolveUpTo 0 "b.example" ++
    setTunnelBinding (some (tunnelAt 9)) ++ resolveFrom 0 ++ resolveCached 1 "b.example"

/-- Its answer is found by a call that starts when the flush is over; and a
literal address is an answer without any binding. -/
theorem answer_outlives_binding :
    (¬ ∀ acts s, run Resolver.step {} acts = some s → ∀ call r, s.resolves call = some r →
      r.quiet = true → r.options.scope = .tunnel → r.Current) ∧
    ¬ ∀ acts s, run Resolver.step {} acts = some s → ∀ call r, s.resolves call = some r →
      r.quiet = true → r.options.scope = .tunnel → r.FailsUnbound := by
  constructor
  · intro h
    have hcall : callAfter storedAfterFlush 1 = some (foundCached "b.example" (tunnelAt 9)) := by
      decide +kernel
    obtain ⟨s, hs, hr⟩ := Option.bind_eq_some_iff.mp hcall
    have hmem := h _ s hs 1 _ hr rfl rfl _ rfl { address := .fromV4 10 1 2 3, via := some (tunnelAt 7) }
      (List.mem_singleton.mpr rfl) (tunnelAt 7) rfl
    revert hmem
    decide
  · intro h
    refine h [.resolve 0 "10.0.0.1" tunnelV4] _ rfl 0 _ rfl rfl rfl ?_ _ rfl
    exact fun b hb => List.mem_singleton.mp hb

end NovaVpn.Net
