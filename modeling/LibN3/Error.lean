import LibN3.Buffer

/-! The error codes of error.h, and the two switches that make them. The macros are those of
errno.h and netdb.h on Linux. -/
namespace LibN3

/-- What ends a call that does not come back: a failed assertion, a position that no build
defines, an access past the end or through a null pointer, and an exception that leaves a
function which is noexcept. -/
inductive Halt
  | assertion (expr : String)
  | unreachable
  | outOfBounds
  | nullPointer
  | terminate
deriving DecidableEq

/-- What follows a call that comes back. -/
theorem halt_ok_bind {A B : Type} (a : A) (f : A → Except Halt B) :
    (Except.ok a >>= f) = f a := rfl

namespace Error

def EAFNOSUPPORT : Int32 := 97
def EADDRINUSE : Int32 := 98
def EADDRNOTAVAIL : Int32 := 99
def EISCONN : Int32 := 106
def E2BIG : Int32 := 7
def EDOM : Int32 := 33
def EFAULT : Int32 := 14
def EBADF : Int32 := 9
def EBADMSG : Int32 := 74
def EPIPE : Int32 := 32
def ECONNABORTED : Int32 := 103
def EALREADY : Int32 := 114
def ECONNREFUSED : Int32 := 111
def ECONNRESET : Int32 := 104
def EXDEV : Int32 := 18
def EDESTADDRREQ : Int32 := 89
def EBUSY : Int32 := 16
def ENOTEMPTY : Int32 := 39
def ENOEXEC : Int32 := 8
def EEXIST : Int32 := 17
def EFBIG : Int32 := 27
def ENAMETOOLONG : Int32 := 36
def ENOSYS : Int32 := 38
def EHOSTUNREACH : Int32 := 113
def EIDRM : Int32 := 43
def EILSEQ : Int32 := 84
def ENOTTY : Int32 := 25
def EINTR : Int32 := 4
def EINVAL : Int32 := 22
def ESPIPE : Int32 := 29
def EIO : Int32 := 5
def EISDIR : Int32 := 21
def EMSGSIZE : Int32 := 90
def ENETDOWN : Int32 := 100
def ENETRESET : Int32 := 102
def ENETUNREACH : Int32 := 101
def ENOBUFS : Int32 := 105
def ECHILD : Int32 := 10
def ENOLINK : Int32 := 67
def ENOLCK : Int32 := 37
def ENOMSG : Int32 := 42
def ENOPROTOOPT : Int32 := 92
def ENOSPC : Int32 := 28
def ENXIO : Int32 := 6
def ENODEV : Int32 := 19
def ENOENT : Int32 := 2
def ESRCH : Int32 := 3
def ENOTDIR : Int32 := 20
def ENOTSOCK : Int32 := 88
def ENOTCONN : Int32 := 107
def ENOMEM : Int32 := 12
def ECANCELED : Int32 := 125
def EINPROGRESS : Int32 := 115
def EPERM : Int32 := 1
def ENOTSUP : Int32 := 95
def EOWNERDEAD : Int32 := 130
def EACCES : Int32 := 13
def EPROTO : Int32 := 71
def EPROTONOSUPPORT : Int32 := 93
def EROFS : Int32 := 30
def EDEADLK : Int32 := 35
def EAGAIN : Int32 := 11
def ERANGE : Int32 := 34
def ENOTRECOVERABLE : Int32 := 131
def ETXTBSY : Int32 := 26
def ETIMEDOUT : Int32 := 110
def ENFILE : Int32 := 23
def EMFILE : Int32 := 24
def EMLINK : Int32 := 31
def ELOOP : Int32 := 40
def EOVERFLOW : Int32 := 75
def EPROTOTYPE : Int32 := 91

def EAI_ADDRFAMILY : Int32 := -9
def EAI_AGAIN : Int32 := -3
def EAI_BADFLAGS : Int32 := -1
def EAI_FAIL : Int32 := -4
def EAI_FAMILY : Int32 := -6
def EAI_MEMORY : Int32 := -10
def EAI_NODATA : Int32 := -5
def EAI_NONAME : Int32 := -2
def EAI_SERVICE : Int32 := -8
def EAI_SOCKTYPE : Int32 := -7
def EAI_SYSTEM : Int32 := -11

inductive PosixError
  | eafnosupport | eaddrinuse | eaddrnotavail | eisconn | e2big | edom | efault | ebadf
  | ebadmsg | epipe | econnaborted | ealready | econnrefused | econnreset | exdev
  | edestaddrreq | ebusy | enotempty | enoexec | eexist | efbig | enametoolong | enosys
  | ehostunreach | eidrm | eilseq | enotty | eintr | einval | espipe | eio | eisdir | emsgsize
  | enetdown | enetreset | enetunreach | enobufs | echild | enolink | enolck | enomsg
  | enoprotoopt | enospc | enxio | enodev | enoent | esrch | enotdir | enotsock | enotconn
  | enomem | ecanceled | einprogress | eperm | enotsup | eownerdead | eacces | eproto
  | eprotonosupport | erofs | edeadlk | eagain | erange | enotrecoverable | etxtbsy | etimedout
  | enfile | emfile | emlink | eloop | eoverflow | eprototype
deriving DecidableEq

inductive GaiError
  | eaiAddrfamily | eaiAgain | eaiBadflags | eaiFail | eaiFamily | eaiMemory | eaiNodata
  | eaiNoname | eaiService | eaiSocktype | eaiSystem
deriving DecidableEq

/-- std::to_underlying. -/
def PosixError.toUnderlying : PosixError → Int32
  | .eafnosupport => EAFNOSUPPORT
  | .eaddrinuse => EADDRINUSE
  | .eaddrnotavail => EADDRNOTAVAIL
  | .eisconn => EISCONN
  | .e2big => E2BIG
  | .edom => EDOM
  | .efault => EFAULT
  | .ebadf => EBADF
  | .ebadmsg => EBADMSG
  | .epipe => EPIPE
  | .econnaborted => ECONNABORTED
  | .ealready => EALREADY
  | .econnrefused => ECONNREFUSED
  | .econnreset => ECONNRESET
  | .exdev => EXDEV
  | .edestaddrreq => EDESTADDRREQ
  | .ebusy => EBUSY
  | .enotempty => ENOTEMPTY
  | .enoexec => ENOEXEC
  | .eexist => EEXIST
  | .efbig => EFBIG
  | .enametoolong => ENAMETOOLONG
  | .enosys => ENOSYS
  | .ehostunreach => EHOSTUNREACH
  | .eidrm => EIDRM
  | .eilseq => EILSEQ
  | .enotty => ENOTTY
  | .eintr => EINTR
  | .einval => EINVAL
  | .espipe => ESPIPE
  | .eio => EIO
  | .eisdir => EISDIR
  | .emsgsize => EMSGSIZE
  | .enetdown => ENETDOWN
  | .enetreset => ENETRESET
  | .enetunreach => ENETUNREACH
  | .enobufs => ENOBUFS
  | .echild => ECHILD
  | .enolink => ENOLINK
  | .enolck => ENOLCK
  | .enomsg => ENOMSG
  | .enoprotoopt => ENOPROTOOPT
  | .enospc => ENOSPC
  | .enxio => ENXIO
  | .enodev => ENODEV
  | .enoent => ENOENT
  | .esrch => ESRCH
  | .enotdir => ENOTDIR
  | .enotsock => ENOTSOCK
  | .enotconn => ENOTCONN
  | .enomem => ENOMEM
  | .ecanceled => ECANCELED
  | .einprogress => EINPROGRESS
  | .eperm => EPERM
  | .enotsup => ENOTSUP
  | .eownerdead => EOWNERDEAD
  | .eacces => EACCES
  | .eproto => EPROTO
  | .eprotonosupport => EPROTONOSUPPORT
  | .erofs => EROFS
  | .edeadlk => EDEADLK
  | .eagain => EAGAIN
  | .erange => ERANGE
  | .enotrecoverable => ENOTRECOVERABLE
  | .etxtbsy => ETXTBSY
  | .etimedout => ETIMEDOUT
  | .enfile => ENFILE
  | .emfile => EMFILE
  | .emlink => EMLINK
  | .eloop => ELOOP
  | .eoverflow => EOVERFLOW
  | .eprototype => EPROTOTYPE

def GaiError.toUnderlying : GaiError → Int32
  | .eaiAddrfamily => EAI_ADDRFAMILY
  | .eaiAgain => EAI_AGAIN
  | .eaiBadflags => EAI_BADFLAGS
  | .eaiFail => EAI_FAIL
  | .eaiFamily => EAI_FAMILY
  | .eaiMemory => EAI_MEMORY
  | .eaiNodata => EAI_NODATA
  | .eaiNoname => EAI_NONAME
  | .eaiService => EAI_SERVICE
  | .eaiSocktype => EAI_SOCKTYPE
  | .eaiSystem => EAI_SYSTEM

inductive ErrorCode
  | posix (error : PosixError)
  | gai (error : GaiError)
deriving DecidableEq

/-- A switch whose cases return and whose default is std::unreachable(). -/
def select {R : Type} (cases : List (Int32 × R)) (label : Int32) : Except Halt R :=
  match cases.lookup label with
  | some result => .ok result
  | none => .error .unreachable

def errnoCases : List (Int32 × PosixError) :=
  [.mk EAFNOSUPPORT .eafnosupport, .mk EADDRINUSE .eaddrinuse, .mk EADDRNOTAVAIL .eaddrnotavail,
    .mk EISCONN .eisconn, .mk E2BIG .e2big, .mk EDOM .edom, .mk EFAULT .efault, .mk EBADF .ebadf,
    .mk EBADMSG .ebadmsg, .mk EPIPE .epipe, .mk ECONNABORTED .econnaborted, .mk EALREADY .ealready,
    .mk ECONNREFUSED .econnrefused, .mk ECONNRESET .econnreset, .mk EXDEV .exdev,
    .mk EDESTADDRREQ .edestaddrreq, .mk EBUSY .ebusy, .mk ENOTEMPTY .enotempty,
    .mk ENOEXEC .enoexec, .mk EEXIST .eexist, .mk EFBIG .efbig, .mk ENAMETOOLONG .enametoolong,
    .mk ENOSYS .enosys, .mk EHOSTUNREACH .ehostunreach, .mk EIDRM .eidrm, .mk EILSEQ .eilseq,
    .mk ENOTTY .enotty, .mk EINTR .eintr, .mk EINVAL .einval, .mk ESPIPE .espipe, .mk EIO .eio,
    .mk EISDIR .eisdir, .mk EMSGSIZE .emsgsize, .mk ENETDOWN .enetdown, .mk ENETRESET .enetreset,
    .mk ENETUNREACH .enetunreach, .mk ENOBUFS .enobufs, .mk ECHILD .echild, .mk ENOLINK .enolink,
    .mk ENOLCK .enolck, .mk ENOMSG .enomsg, .mk ENOPROTOOPT .enoprotoopt, .mk ENOSPC .enospc,
    .mk ENXIO .enxio, .mk ENODEV .enodev, .mk ENOENT .enoent, .mk ESRCH .esrch,
    .mk ENOTDIR .enotdir, .mk ENOTSOCK .enotsock, .mk ENOTCONN .enotconn, .mk ENOMEM .enomem,
    .mk ENOTSUP .enotsup, .mk ECANCELED .ecanceled, .mk EINPROGRESS .einprogress, .mk EPERM .eperm,
    .mk EOWNERDEAD .eownerdead, .mk EACCES .eacces, .mk EPROTO .eproto,
    .mk EPROTONOSUPPORT .eprotonosupport, .mk EROFS .erofs, .mk EDEADLK .edeadlk,
    .mk EAGAIN .eagain, .mk ERANGE .erange, .mk ENOTRECOVERABLE .enotrecoverable,
    .mk ETXTBSY .etxtbsy, .mk ETIMEDOUT .etimedout, .mk ENFILE .enfile, .mk EMFILE .emfile,
    .mk EMLINK .emlink, .mk ELOOP .eloop, .mk EOVERFLOW .eoverflow, .mk EPROTOTYPE .eprototype]

def getErrorCodeFromErrno (errnoArg : Int32) : Except Halt ErrorCode :=
  (select errnoCases errnoArg).map .posix

/- EAI_SYSTEM has a case of its own. -/
def gaiCases : List (Int32 × GaiError) :=
  [.mk EAI_ADDRFAMILY .eaiAddrfamily, .mk EAI_AGAIN .eaiAgain, .mk EAI_BADFLAGS .eaiBadflags,
    .mk EAI_FAIL .eaiFail, .mk EAI_FAMILY .eaiFamily, .mk EAI_MEMORY .eaiMemory,
    .mk EAI_NODATA .eaiNodata, .mk EAI_NONAME .eaiNoname, .mk EAI_SERVICE .eaiService,
    .mk EAI_SOCKTYPE .eaiSocktype]

def getErrorCodeFromGetaddrinfoErr (addrErr errnoArg : Int32) : Except Halt ErrorCode :=
  if addrErr = EAI_SYSTEM then getErrorCodeFromErrno errnoArg
  else (select gaiCases addrErr).map .gai

theorem select_default {R : Type} {cases : List (Int32 × R)} {label : Int32}
    (missed : ∀ c ∈ cases, c.1 ≠ label) : select cases label = .error .unreachable := by
  have none : cases.lookup label = none :=
    List.lookup_eq_none_iff.mpr fun c member => bne_iff_ne.mpr (missed c member).symm
  rw [select, none]

theorem select_error {R : Type} {cases : List (Int32 × R)} {label : Int32} {halt : Halt}
    (fails : select cases label = .error halt) : halt = .unreachable := by
  unfold select at fails
  split at fails
  · cases fails
  · cases fails
    rfl

theorem errnoCases_labelled : ∀ c ∈ errnoCases, c.2.toUnderlying = c.1 := by
  decide

theorem gaiCases_labelled : ∀ c ∈ gaiCases, c.2.toUnderlying = c.1 := by
  decide

theorem labels_apart : (errnoCases.map Prod.fst).Nodup ∧ (gaiCases.map Prod.fst).Nodup := by
  decide

/- One of the errors that posix_error enumerates. -/
def Enumerated (errno : Int32) : Prop := ∃ error : PosixError, error.toUnderlying = errno

theorem getErrorCodeFromErrno_toUnderlying (error : PosixError) :
    getErrorCodeFromErrno error.toUnderlying = .ok (.posix error) := by
  cases error <;> rfl

theorem getErrorCodeFromErrno_other {errno : Int32} (other : ¬ Enumerated errno) :
    getErrorCodeFromErrno errno = .error .unreachable := by
  have missed : select errnoCases errno = .error .unreachable :=
    select_default fun c member same => other ⟨c.2, (errnoCases_labelled c member).trans same⟩
  rw [getErrorCodeFromErrno, missed]
  rfl

/- One of the failures of getaddrinfo that gai_error enumerates. -/
def GaiEnumerated (addrErr : Int32) : Prop := ∃ error : GaiError, error.toUnderlying = addrErr

theorem getErrorCodeFromGetaddrinfoErr_system (errnoArg : Int32) :
    getErrorCodeFromGetaddrinfoErr EAI_SYSTEM errnoArg = getErrorCodeFromErrno errnoArg := rfl

theorem getErrorCodeFromGetaddrinfoErr_toUnderlying {error : GaiError} (errnoArg : Int32)
    (elsewhere : error.toUnderlying ≠ EAI_SYSTEM) :
    getErrorCodeFromGetaddrinfoErr error.toUnderlying errnoArg = .ok (.gai error) := by
  rw [getErrorCodeFromGetaddrinfoErr, if_neg elsewhere]
  cases error with
  | eaiSystem => exact absurd rfl elsewhere
  | _ => rfl

theorem getErrorCodeFromGetaddrinfoErr_other {addrErr : Int32} (errnoArg : Int32)
    (other : ¬ GaiEnumerated addrErr) :
    getErrorCodeFromGetaddrinfoErr addrErr errnoArg = .error .unreachable := by
  have elsewhere : addrErr ≠ EAI_SYSTEM := fun same => other ⟨.eaiSystem, same.symm⟩
  have missed : select gaiCases addrErr = .error .unreachable :=
    select_default fun c member same => other ⟨c.2, (gaiCases_labelled c member).trans same⟩
  rw [getErrorCodeFromGetaddrinfoErr, if_neg elsewhere, missed]
  rfl

end Error

end LibN3
