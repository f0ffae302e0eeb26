import LibN3.Dns

/-! The list that the C function makes, from the place it is stored in to the vector and to
freeaddrinfo. -/
namespace LibN3.Net.Dns
open Error Linux

/-- An entry of the vector has what the node of the list has, and an empty name for a null
one. -/
structure Copied (caddr : CAddrinfo) (entry : Addrinfo) : Prop where
  flags : entry.aiFlags = caddr.aiFlags
  family : entry.aiFamily = caddr.aiFamily
  socktype : entry.aiSocktype = caddr.aiSocktype
  protocol : entry.aiProtocol = caddr.aiProtocol
  addr : ∀ (i : Fin 128) (inside : i < caddr.aiAddr.length), entry.aiAddr.byte i = caddr.aiAddr[i]
  canonname : entry.aiCanonname = caddr.aiCanonname.getD ""

/-- A list that is found is converted and then freed, and a failure is an error that frees
nothing. -/
def Converts (outcome : Except Halt (Expected (List Addrinfo) × List (List CAddrinfo))) :
    Resolution → Prop
  | .found list => ∃ entries, outcome = .ok (.ok entries, [list]) ∧ List.Forall₂ Copied list entries
  | .failed .. => ∃ code, outcome = .ok (.error code, [])

def Resolution.Known : Resolution → Prop
  | .failed ret errno _ => if ret = EAI_SYSTEM then Enumerated errno else GaiEnumerated ret
  | .found _ => False

theorem coded_iff_known {outcome : Except Halt ErrorCode} {known : Prop}
    (told : known → ∃ code, outcome = .ok code)
    (untold : ¬ known → outcome = .error .unreachable) : (∃ code, outcome = .ok code) ↔ known := by
  refine ⟨?_, told⟩
  rintro ⟨code, coded⟩
  by_contra other
  rw [untold other] at coded
  cases coded

theorem known_failure_iff (ret errno : Int32) :
    (∃ code, getErrorCodeFromGetaddrinfoErr ret errno = .ok code) ↔
      if ret = EAI_SYSTEM then Enumerated errno else GaiEnumerated ret := by
  split
  · rename_i system
    rw [system, getErrorCodeFromGetaddrinfoErr_system]
    refine coded_iff_known ?_ getErrorCodeFromErrno_other
    rintro ⟨error, rfl⟩
    exact ⟨_, getErrorCodeFromErrno_toUnderlying error⟩
  · rename_i elsewhere
    refine coded_iff_known ?_ (getErrorCodeFromGetaddrinfoErr_other errno)
    rintro ⟨error, rfl⟩
    exact ⟨_, getErrorCodeFromGetaddrinfoErr_toUnderlying errno elsewhere⟩

def CAddrinfo.entry (caddr : CAddrinfo) (aiCanonname : String) : Addrinfo :=
  ⟨caddr.aiFlags, caddr.aiFamily, caddr.aiSocktype, caddr.aiProtocol,
    SockaddrStorage.zero.store caddr.aiAddr, aiCanonname⟩

theorem copied_entry {caddr : CAddrinfo} {name : String} (named : caddr.aiCanonname = some name) :
    Copied caddr (caddr.entry name) where
  flags := rfl
  family := rfl
  socktype := rfl
  protocol := rfl
  addr i inside := by
    simp [CAddrinfo.entry, SockaddrStorage.store, inside]
  canonname := by
    rw [named]
    rfl

theorem ofC_named {caddr : CAddrinfo} {name : String} (named : caddr.aiCanonname = some name)
    (fits : caddr.aiAddr.length ≤ 128) : Addrinfo.ofC caddr = .ok (caddr.entry name) := by
  have room : caddr.aiAddr.length ≤ sockaddrStorageSize.toNat := fits
  simp only [Addrinfo.ofC, named, if_pos room]
  rfl

theorem mapM_ofC_named {list : List CAddrinfo} (fits : ∀ c ∈ list, c.aiAddr.length ≤ 128)
    (named : ∀ c ∈ list, c.aiCanonname.isSome) :
    ∃ entries, list.mapM Addrinfo.ofC = .ok entries ∧ List.Forall₂ Copied list entries := by
  induction list with
  | nil => exact ⟨[], rfl, .nil⟩
  | cons caddr rest ih =>
    rw [List.forall_mem_cons] at fits named
    obtain ⟨name, canonname⟩ := Option.isSome_iff_exists.mp named.1
    obtain ⟨entries, converted, copied⟩ := ih fits.2 named.2
    refine ⟨caddr.entry name :: entries, ?_, .cons (copied_entry canonname) copied⟩
    rw [List.mapM_cons, ofC_named canonname fits.1, converted]
    rfl

theorem mapM_ofC_ok {list : List CAddrinfo} {entries : List Addrinfo}
    (converted : list.mapM Addrinfo.ofC = .ok entries) : ∀ c ∈ list, c.aiCanonname.isSome := by
  induction list generalizing entries with
  | nil => exact fun c member => absurd member List.not_mem_nil
  | cons caddr rest ih =>
    rw [List.mapM_cons] at converted
    cases canonname : caddr.aiCanonname with
    | none =>
      have fails : Addrinfo.ofC caddr = .error .terminate := by
        rw [Addrinfo.ofC, canonname]
      rw [fails] at converted
      cases converted
    | some name =>
      cases tail : rest.mapM Addrinfo.ofC with
      | error halt =>
        rw [tail] at converted
        cases first : Addrinfo.ofC caddr <;> rw [first] at converted <;> cases converted
      | ok others =>
        exact List.forall_mem_cons.mpr ⟨Option.isSome_iff_exists.mpr ⟨name, canonname⟩, ih tail⟩

section resolve

variable (build : Build) {resolver : Resolver} {node service : Option String}
  {hints : Option CAddrinfo}

/-- Given a place to store the list in, it would be converted exactly when every node has a
canonical name. -/
theorem converts_at_place_iff (old : List CAddrinfo) {list : List CAddrinfo}
    (present : (node.isNone && service.isNone) = false)
    (found : resolver node service hints = .found list)
    (fits : ∀ c ∈ list, c.aiAddr.length ≤ 128) :
    Converts (getaddrinfoAt (some old) build resolver node service hints) (.found list) ↔
      ∀ c ∈ list, c.aiCanonname.isSome := by
  rw [getaddrinfoAt_found build old list present found]
  constructor
  · rintro ⟨entries, outcome, _⟩
    cases converted : list.mapM Addrinfo.ofC with
    | error halt =>
      rw [converted] at outcome
      cases outcome
    | ok result => exact mapM_ofC_ok converted
  · intro named
    obtain ⟨entries, converted, copied⟩ := mapM_ofC_named fits named
    rw [converted]
    exact ⟨entries, rfl, copied⟩

end resolve

/-- No list is ever converted, for there is no place to store one in. A failure is told where
its code is known. -/
theorem names_resolved_iff_known_failure (build : Build) (resolver : Resolver)
    (node service : Option String) (hints : Option CAddrinfo)
    (present : (node.isNone && service.isNone) = false) :
    Converts (getaddrinfoAt none build resolver node service hints)
        (resolver node service hints) ↔
      (resolver node service hints).Known := by
  cases resolution : resolver node service hints with
  | found list =>
    rw [getaddrinfoAt_null_found build present resolution]
    exact iff_of_false (by rintro ⟨_, ⟨⟩, _⟩) not_false
  | failed ret errno nonzero =>
    rw [getaddrinfoAt_failed build none present resolution, Resolution.Known, ← known_failure_iff]
    cases getErrorCodeFromGetaddrinfoErr ret errno with
    | error halt => exact iff_of_false (by rintro ⟨_, ⟨⟩⟩) (by rintro ⟨_, ⟨⟩⟩)
    | ok code => exact iff_of_true ⟨code, rfl⟩ ⟨code, rfl⟩

theorem unknown_host_told :
    Converts (getaddrinfoAt none .release (fun _ _ _ => .failed EAI_NONAME 0 (by decide))
      (some "nowhere.invalid") none none) (.failed EAI_NONAME 0 (by decide)) :=
  (names_resolved_iff_known_failure .release _ _ none none rfl).mpr ⟨.eaiNoname, rfl⟩

def localhost : CAddrinfo :=
  ⟨0, 2, 1, 6, [2, 0, 0, 0, 127, 0, 0, 1, 0, 0, 0, 0, 0, 0, 0, 0], some "localhost"⟩

theorem localhost_not_resolved :
    ¬ ∀ (build : Build) (resolver : Resolver) (node service : Option String)
      (hints : Option CAddrinfo), (node.isNone && service.isNone) = false →
      (∀ list, resolver node service hints = .found list →
        ∀ c ∈ list, c.aiAddr.length ≤ 128) →
      Converts (getaddrinfoAt none build resolver node service hints)
        (resolver node service hints) := by
  intro claim
  have fits : ∀ list, Resolution.found [localhost] = .found list →
      ∀ c ∈ list, c.aiAddr.length ≤ 128 := by
    rintro list ⟨⟩
    decide
  obtain ⟨entries, outcome, _⟩ :=
    claim .release (fun _ _ _ => .found [localhost]) (some "localhost") none none rfl fits
  cases outcome

end LibN3.Net.Dns
