import LibN3.Dns

/-! What the wrappers of syscalls.h and dns.h make of every answer that the kernel and the C
library can give. -/
namespace LibN3.Linux
open Error Net Net.Dns

inductive Request
  | setsockopt (sock : Handle) (level option : Int32) (optionValue : RefBuffer)
  | getsockopt (sock : Handle) (level option : Int32) (optionBuf : RefBuffer)
  | readv (fd : Handle) (bufs : List RefBuffer)
  | writev (fd : Handle) (bufs : List RefBuffer)
  | send (sock : Handle) (buf : RefBuffer) (flags : Int32)
  | sendto (sock : Handle) (buf : RefBuffer) (rawAddr : List UInt8) (flags : Int32)
  | sendmsg (sock : Handle) (msg : MsgHdr) (flags : Int32)
  | recv (sock : Handle) (buf : RefBuffer) (flags : Int32)
  | recvfrom (sock : Handle) (buf : RefBuffer) (flags : Int32)
  | recvmsg (sock : Handle) (flags : Int32)
  | sysconf (name : Int32)
  | connect (sock : Handle) (rawAddr : List UInt8)
  | bind (sock : Handle) (rawAddr : List UInt8)
  | listen (sock : Handle) (backlog : Int32)
  | accept (sock : Handle)
  | getaddrinfo (node service : Option String) (hints : Option CAddrinfo)

@[reducible] def Request.Result : Request → Type
  | .setsockopt .. | .connect .. | .bind .. | .listen .. => Unit
  | .getsockopt .. => RefBuffer
  | .readv .. | .writev .. | .send .. | .sendto .. | .sendmsg .. | .recv .. => SizeT
  | .recvfrom .. => SizeT × Address
  | .recvmsg .. => SizeT × MsgHdr
  | .sysconf .. => Int64
  | .accept .. => Handle × Address
  | .getaddrinfo .. => List Addrinfo

structure System where
  kernel : Kernel
  resolver : Resolver

def Request.perform (build : Build) (s : System) :
    (r : Request) → Except Halt (Expected r.Result)
  | .setsockopt sock level option optionValue =>
    Linux.setsockopt s.kernel sock level option optionValue
  | .getsockopt sock level option optionBuf =>
    Linux.getsockopt build s.kernel sock level option optionBuf
  | .readv fd bufs => Linux.readv build s.kernel fd bufs
  | .writev fd bufs => Linux.writev build s.kernel fd bufs
  | .send sock buf flags => Linux.send s.kernel sock buf flags
  | .sendto sock buf rawAddr flags => Linux.sendto s.kernel sock buf rawAddr flags
  | .sendmsg sock msg flags => Linux.sendmsg s.kernel sock msg flags
  | .recv sock buf flags => Linux.recv s.kernel sock buf flags
  | .recvfrom sock buf flags => Linux.recvfrom s.kernel sock buf flags
  | .recvmsg sock flags => Linux.recvmsg s.kernel sock flags
  | .sysconf name => Linux.sysconf s.kernel name
  | .connect sock rawAddr => Linux.connect s.kernel sock rawAddr
  | .bind sock rawAddr => Linux.bind s.kernel sock rawAddr
  | .listen sock backlog => Linux.listen s.kernel sock backlog
  | .accept sock => Linux.accept s.kernel sock
  | .getaddrinfo node service hints => Dns.getaddrinfo build s.resolver node service hints

/-- What a caller should be told: a value, or an error with an errno or an EAI code. -/
inductive Report (A : Type)
  | value (holds : A → Prop)
  | posix (errno : Int32)
  | gai (addrErr : Int32)

/-- The wrapper returns, and what it returns says what the report does. -/
def Makes {A : Type} (outcome : Except Halt (Expected A)) : Report A → Prop
  | .value holds => ∃ value, outcome = .ok (.ok value) ∧ holds value
  | .posix errno =>
    ∃ error : PosixError, outcome = .ok (.error (.posix error)) ∧ error.toUnderlying = errno
  | .gai addrErr =>
    ∃ error : GaiError, outcome = .ok (.error (.gai error)) ∧ error.toUnderlying = addrErr

def Report.ofAnswer {V A : Type} (answer : Except Int32 V) (holds : V → A → Prop) : Report A :=
  match answer with
  | .error errno => .posix errno
  | .ok v => .value (holds v)

def sourceOf (stored : List UInt8) : SockaddrStorage := SockaddrStorage.zero.store stored

/-- The number that came with an address, and the address that was stored. -/
def Addressed {V : Type} (answer : V × List UInt8) (result : V × Address) : Prop :=
  result.1 = answer.1 ∧ result.2.ReadFrom (sourceOf answer.2)

/-- What the answers of the system are to a caller. A connection in progress is a success, and
a limit that there is none of is not supported. -/
def Request.report (s : System) : (r : Request) → Report r.Result
  | .setsockopt sock level option optionValue =>
    .ofAnswer (s.kernel (.setsockopt sock level option optionValue.iovBase
      optionValue.size.toUInt32)) (· = ·)
  | .getsockopt sock level option optionBuf =>
    if (getSockoptSize level option).toOption.any (optionBuf.size < ·) then .posix EINVAL
    else .ofAnswer (s.kernel (.getsockopt sock level option optionBuf.iovBase 0))
      fun optlen span => span.iovBase = optionBuf.iovBase ∧ span.size = optlen.toUInt64
  | .readv fd bufs => .ofAnswer (s.kernel (.readv fd bufs)) (· = ·)
  | .writev fd bufs => .ofAnswer (s.kernel (.writev fd bufs)) (· = ·)
  | .send sock buf flags => .ofAnswer (s.kernel (.send sock buf flags)) (· = ·)
  | .sendto sock buf rawAddr flags =>
    .ofAnswer (s.kernel (.sendto sock buf flags rawAddr)) (· = ·)
  | .sendmsg sock msg flags => .ofAnswer (s.kernel (.sendmsg sock msg flags)) (· = ·)
  | .recv sock buf flags => .ofAnswer (s.kernel (.recv sock buf flags)) (· = ·)
  | .recvfrom sock buf flags =>
    .ofAnswer (s.kernel (.recvfrom sock buf flags sockaddrStorageSize)) Addressed
  | .recvmsg sock flags => .ofAnswer (s.kernel (.recvmsg sock .zero flags)) (· = ·)
  | .sysconf name =>
    match s.kernel (.sysconf name) with
    | .error errno => .posix (if errno = 0 then ENOTSUP else errno)
    | .ok ret => .value (ret = ·)
  | .connect sock rawAddr =>
    match s.kernel (.connect sock rawAddr) with
    | .error errno => if errno = EINPROGRESS then .value fun _ => True else .posix errno
    | .ok () => .value fun _ => True
  | .bind sock rawAddr => .ofAnswer (s.kernel (.bind sock rawAddr)) (· = ·)
  | .listen sock backlog => .ofAnswer (s.kernel (.listen sock backlog)) (· = ·)
  | .accept sock => .ofAnswer (s.kernel (.accept sock sockaddrStorageSize)) Addressed
  | .getaddrinfo node service hints =>
    if node.isNone && service.isNone then .posix EINVAL
    else
      match s.resolver node service hints with
      | .failed ret errno _ => if ret = EAI_SYSTEM then .posix errno else .gai ret
      | .found list => .value fun result => result.length = list.length

def Covered {V : Type} (answer : Except Int32 V) (kind : V → Prop) : Prop :=
  match answer with
  | .error errno => Enumerated errno
  | .ok v => kind v

/-- The answers that the switches of the wrapper have cases for, where the system gives one. -/
def Request.Covered (s : System) : Request → Prop
  | .setsockopt sock level option optionValue =>
    Linux.Covered (s.kernel (.setsockopt sock level option optionValue.iovBase
      optionValue.size.toUInt32)) fun _ => True
  | .getsockopt sock level option optionBuf =>
    ∃ needed, getSockoptSize level option = .ok needed ∧ (optionBuf.size < needed ∨
      Linux.Covered (s.kernel (.getsockopt sock level option optionBuf.iovBase 0))
        fun optlen => optlen.toUInt64 ≤ optionBuf.size)
  | .readv fd bufs =>
    bufs.length ≤ IOV_MAX ∧ Linux.Covered (s.kernel (.readv fd bufs)) fun _ => True
  | .writev fd bufs =>
    bufs.length ≤ IOV_MAX ∧ Linux.Covered (s.kernel (.writev fd bufs)) fun _ => True
  | .send sock buf flags => Linux.Covered (s.kernel (.send sock buf flags)) fun _ => True
  | .sendto sock buf rawAddr flags =>
    Linux.Covered (s.kernel (.sendto sock buf flags rawAddr)) fun _ => True
  | .sendmsg sock msg flags =>
    Linux.Covered (s.kernel (.sendmsg sock msg flags)) fun _ => True
  | .recv sock buf flags => Linux.Covered (s.kernel (.recv sock buf flags)) fun _ => True
  | .recvfrom sock buf flags =>
    Linux.Covered (s.kernel (.recvfrom sock buf flags sockaddrStorageSize))
      fun answer => (sourceOf answer.2).Inet
  | .recvmsg sock flags =>
    Linux.Covered (s.kernel (.recvmsg sock .zero flags)) fun _ => True
  | .sysconf name =>
    s.kernel (.sysconf name) = .error 0 ∨
      Linux.Covered (s.kernel (.sysconf name)) fun _ => True
  | .connect sock rawAddr => Linux.Covered (s.kernel (.connect sock rawAddr)) fun _ => True
  | .bind sock rawAddr => Linux.Covered (s.kernel (.bind sock rawAddr)) fun _ => True
  | .listen sock backlog => Linux.Covered (s.kernel (.listen sock backlog)) fun _ => True
  | .accept sock =>
    Linux.Covered (s.kernel (.accept sock sockaddrStorageSize))
      fun answer => (sourceOf answer.2).Inet
  | .getaddrinfo node service hints =>
    (node.isNone && service.isNone) = true ∨
      match s.resolver node service hints with
      | .failed ret errno _ => if ret = EAI_SYSTEM then Enumerated errno else GaiEnumerated ret
      | .found _ => False

/-- A covered answer is told, and the wrapper does not come back from any other. -/
structure Settles {A : Type} (outcome : Except Halt (Expected A)) (report : Report A)
    (covered : Prop) : Prop where
  told : covered → Makes outcome report
  halts : ¬ covered → ∃ halt, outcome = .error halt

section checked

variable {V A : Type} {next : V → Except Halt (Expected A)} {outcome : Except Halt (Expected A)}
  {report : Report A} {covered : Prop}

theorem not_makes_error {halt : Halt} {report : Report A} :
    ¬ Makes (.error halt : Except Halt (Expected A)) report := by
  cases report <;> rintro ⟨_, ⟨⟩, _⟩

theorem Settles.makes_iff (settles : Settles outcome report covered) :
    Makes outcome report ↔ covered := by
  refine ⟨fun makes => ?_, settles.told⟩
  by_contra other
  obtain ⟨halt, halted⟩ := settles.halts other
  rw [halted] at makes
  exact not_makes_error makes

theorem Settles.makes_of_returns (settles : Settles outcome report covered)
    {result : Expected A} (returns : outcome = .ok result) : Makes (.ok result) report := by
  rw [← returns]
  apply settles.told
  by_contra other
  obtain ⟨halt, halts⟩ := settles.halts other
  rw [returns] at halts
  cases halts

theorem settles_returned {holds : A → Prop} {value : A} (told : holds value) :
    Settles (returned value) (.value holds) True :=
  ⟨fun _ => ⟨value, rfl, told⟩, fun other => absurd trivial other⟩

theorem settles_error (halt : Halt) (other : ¬ covered) :
    Settles (.error halt : Except Halt (Expected A)) report covered :=
  ⟨fun known => absurd known other, fun _ => ⟨halt, rfl⟩⟩

theorem settles_unexpected (errno : Int32) :
    Settles (unexpected errno : Except Halt (Expected A)) (.posix errno) (Enumerated errno) := by
  constructor
  · rintro ⟨error, rfl⟩
    refine ⟨error, ?_, rfl⟩
    rw [unexpected, getErrorCodeFromErrno_toUnderlying]
    rfl
  · intro other
    refine ⟨.unreachable, ?_⟩
    rw [unexpected, getErrorCodeFromErrno_other other]
    rfl

theorem makes_unexpected_iff (errno : Int32) :
    Makes (unexpected errno : Except Halt (Expected A)) (.posix errno) ↔ Enumerated errno :=
  (settles_unexpected errno).makes_iff

theorem settles_gai {addrErr : Int32} (errnoArg : Int32) (elsewhere : addrErr ≠ EAI_SYSTEM) :
    Settles ((getErrorCodeFromGetaddrinfoErr addrErr errnoArg).map .error :
        Except Halt (Expected A)) (.gai addrErr) (GaiEnumerated addrErr) := by
  constructor
  · rintro ⟨error, rfl⟩
    refine ⟨error, ?_, rfl⟩
    rw [getErrorCodeFromGetaddrinfoErr_toUnderlying errnoArg elsewhere]
    rfl
  · intro other
    refine ⟨.unreachable, ?_⟩
    rw [getErrorCodeFromGetaddrinfoErr_other errnoArg other]
    rfl

/-- A failure is told by the one table of errors there is, whatever comes of a value. -/
theorem settles_checked {holds : V → A → Prop} {kind : V → Prop}
    (value : ∀ v, Settles (next v) (.value (holds v)) (kind v)) (answer : Except Int32 V) :
    Settles (checked answer next) (.ofAnswer answer holds) (Covered answer kind) := by
  cases answer with
  | error errno => exact settles_unexpected errno
  | ok v => exact value v

theorem settles_checked_returned (answer : Except Int32 A) :
    Settles (checked answer returned) (.ofAnswer answer (· = ·)) (Covered answer fun _ => True) :=
  settles_checked (fun _ => settles_returned rfl) answer

theorem settles_relyOn (build : Build) (expr : String) (holds : Bool)
    (settles : Settles outcome report covered) :
    Settles (relyOn build expr holds >>= fun _ => outcome) report (holds = true ∧ covered) := by
  cases holds with
  | true => exact ⟨fun both => settles.told both.2, fun other => settles.halts fun known => other ⟨rfl, known⟩⟩
  | false =>
    cases build <;> exact settles_error _ fun both => Bool.false_ne_true both.1

theorem settles_withAddress (answer : V × List UInt8) :
    Settles (withAddress answer.1 answer.2) (.value (Addressed answer)) (sourceOf answer.2).Inet := by
  have source : SockaddrStorage.zero.store answer.2 = sourceOf answer.2 := rfl
  rw [withAddress, source]
  constructor
  · intro inet
    obtain ⟨address, converted, read⟩ := sockaddrToAddress_inet inet
    rw [converted]
    exact ⟨(answer.1, address), rfl, rfl, read⟩
  · intro other
    rw [sockaddrToAddress_other other]
    exact ⟨.unreachable, rfl⟩

end checked

section wrappers

variable (build : Build) {s : System}

theorem settles_sysconf (name : Int32) :
    Settles (sysconf s.kernel name) ((Request.sysconf name).report s)
      ((Request.sysconf name).Covered s) := by
  simp only [sysconf, Request.report, Request.Covered]
  cases s.kernel (.sysconf name) with
  | ok ret =>
    have always : (Except.ok ret : Except Int32 Int64) = .error 0 ∨
        Covered (Except.ok ret : Except Int32 Int64) (fun _ => True) ↔ True :=
      iff_of_true (.inr trivial) trivial
    rw [always]
    exact settles_returned rfl
  | error errno =>
    by_cases unset : errno = 0
    · subst unset
      have enumerated : (Except.error 0 : Except Int32 Int64) = .error 0 ∨
          Covered (Except.error 0 : Except Int32 Int64) (fun _ => True) ↔ Enumerated ENOTSUP :=
        iff_of_true (.inl rfl) ⟨.enotsup, rfl⟩
      rw [enumerated]
      exact settles_unexpected ENOTSUP
    · have set : (Except.error errno : Except Int32 Int64) ≠ .error 0 :=
        fun same => unset (Except.error.inj same)
      simp only [if_neg unset, set, false_or]
      exact settles_unexpected errno

theorem settles_connect (sock : Handle) (rawAddr : List UInt8) :
    Settles (connect s.kernel sock rawAddr) ((Request.connect sock rawAddr).report s)
      ((Request.connect sock rawAddr).Covered s) := by
  simp only [connect, Request.report, Request.Covered]
  cases s.kernel (.connect sock rawAddr) with
  | ok ret => exact settles_returned trivial
  | error errno =>
    by_cases initiated : errno = EINPROGRESS
    · subst initiated
      have enumerated : Covered (Except.error EINPROGRESS : Except Int32 Unit) (fun _ => True) ↔
          True := iff_of_true ⟨.einprogress, rfl⟩ trivial
      rw [enumerated]
      exact settles_returned trivial
    · simp only [if_neg initiated]
      exact settles_unexpected errno

theorem settles_getsockopt (sock : Handle) (level option : Int32) (optionBuf : RefBuffer) :
    Settles (getsockopt build s.kernel sock level option optionBuf)
      ((Request.getsockopt sock level option optionBuf).report s)
      ((Request.getsockopt sock level option optionBuf).Covered s) := by
  simp only [Request.report, Request.Covered]
  cases supported : getSockoptSize level option with
  | error halt =>
    rw [getsockopt_unsupported build _ sock supported]
    exact settles_error halt (by rintro ⟨needed, ⟨⟩, _⟩)
  | ok needed =>
    have sized (P : SizeT → Prop) : (∃ size, Except.ok needed = (.ok size : Except Halt SizeT) ∧
        P size) ↔ P needed := by
      simp
    have asked : (Except.ok needed : Except Halt SizeT).toOption.any (optionBuf.size < ·) =
        decide (optionBuf.size < needed) := rfl
    simp only [sized, asked, decide_eq_true_eq]
    by_cases small : optionBuf.size < needed
    · have enumerated (P : Prop) : optionBuf.size < needed ∨ P ↔ Enumerated EINVAL :=
        iff_of_true (.inl small) ⟨.einval, rfl⟩
      rw [getsockopt_small build _ sock supported small, if_pos small, enumerated]
      exact settles_unexpected EINVAL
    · rw [getsockopt_large build _ sock supported small, if_neg small, or_iff_right small]
      refine settles_checked (fun optlen => ?_) _
      have told : Settles (returned (optionBuf.first optlen))
          (.value fun span => span.iovBase = optionBuf.iovBase ∧ span.size = optlen.toUInt64) True :=
        settles_returned ⟨rfl, rfl⟩
      have within := settles_relyOn build "optlen <= option_buf.as_span().size_bytes()"
        (decide (optlen.toUInt64 ≤ optionBuf.size)) told
      rw [and_true, decide_eq_true_iff] at within
      exact within

theorem settles_getaddrinfo (node service : Option String) (hints : Option CAddrinfo) :
    Settles (Dns.getaddrinfo build s.resolver node service hints)
      ((Request.getaddrinfo node service hints).report s)
      ((Request.getaddrinfo node service hints).Covered s) := by
  simp only [Request.report, Request.Covered]
  cases absent : node.isNone && service.isNone with
  | true =>
    have enumerated (P : Prop) : true = true ∨ P ↔ Enumerated EINVAL :=
      iff_of_true (.inl rfl) ⟨.einval, rfl⟩
    rw [getaddrinfo_absent build absent, enumerated, if_pos rfl]
    exact settles_unexpected EINVAL
  | false =>
    simp only [Bool.false_eq_true, if_false, false_or]
    cases resolution : s.resolver node service hints with
    | found list =>
      rw [getaddrinfo, getaddrinfoAt_null_found build absent resolution]
      exact settles_error _ not_false
    | failed ret errno nonzero =>
      rw [getaddrinfo_failed build absent resolution]
      by_cases of_system : ret = EAI_SYSTEM
      · subst of_system
        exact settles_unexpected errno
      · simp only [if_neg of_system]
        exact settles_gai errno of_system

theorem settles_vectored (bufs : List RefBuffer) (answer : Except Int32 SizeT) :
    Settles (relyOn build "bufs.size() <= IOV_MAX" (bufs.length ≤ IOV_MAX) >>=
        fun _ => checked answer returned) (.ofAnswer answer (· = ·))
      (bufs.length ≤ IOV_MAX ∧ Covered answer fun _ => True) := by
  have relies := settles_relyOn build "bufs.size() <= IOV_MAX" (decide (bufs.length ≤ IOV_MAX))
    (settles_checked_returned answer)
  rw [decide_eq_true_iff] at relies
  exact relies

theorem settles_perform (r : Request) :
    Settles (r.perform build s) (r.report s) (r.Covered s) := by
  cases r with
  | setsockopt sock level option optionValue => exact settles_checked_returned _
  | getsockopt sock level option optionBuf =>
    exact settles_getsockopt build sock level option optionBuf
  | readv fd bufs => exact settles_vectored build bufs _
  | writev fd bufs => exact settles_vectored build bufs _
  | send sock buf flags => exact settles_checked_returned _
  | sendto sock buf rawAddr flags => exact settles_checked_returned _
  | sendmsg sock msg flags => exact settles_checked_returned _
  | recv sock buf flags => exact settles_checked_returned _
  | recvfrom sock buf flags => exact settles_checked settles_withAddress _
  | recvmsg sock flags => exact settles_checked_returned _
  | sysconf name => exact settles_sysconf name
  | connect sock rawAddr => exact settles_connect sock rawAddr
  | bind sock rawAddr => exact settles_checked_returned _
  | listen sock backlog => exact settles_checked_returned _
  | accept sock => exact settles_checked settles_withAddress _
  | getaddrinfo node service hints => exact settles_getaddrinfo build node service hints

end wrappers

/-- A wrapper tells its caller what the system answered exactly when the answer is one that its
switches have a case for. -/
theorem wrappers_answer_iff_covered (build : Build) (s : System) (r : Request) :
    Makes (r.perform build s) (r.report s) ↔ r.Covered s :=
  (settles_perform build r).makes_iff

/- A connected stream socket with one byte to read, for which no address is stored. -/
def connected : System where
  kernel
    | .recvfrom .. => .ok (1, [])
    | _ => .error EINTR
  resolver _ _ _ := .failed EAI_AGAIN 0 (by decide)

theorem recvfrom_connected_is_unreachable :
    ¬ ∀ (build : Build) (s : System) (r : Request), Makes (r.perform build s) (r.report s) := by
  intro claim
  have halts : (Request.recvfrom 3 (.mk 64 1) 0).perform .release connected =
      .error .unreachable := rfl
  have told := claim .release connected (.recvfrom 3 (.mk 64 1) 0)
  rw [halts] at told
  exact not_makes_error told

end LibN3.Linux
