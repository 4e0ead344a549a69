/-!
# Faults of the outside world

What a file, a process or a stream reports when an operation fails: a numbered fault of the system, or a fault
known only by its kind, with or without a text of its own.
-/

namespace AppLauncher

/-- The kind of a fault. -/
inductive FaultKind
  | notFound | permissionDenied | connectionRefused | connectionReset | hostUnreachable | networkUnreachable
  | connectionAborted | notConnected | addrInUse | addrNotAvailable | networkDown | brokenPipe | alreadyExists
  | wouldBlock | notADirectory | isADirectory | directoryNotEmpty | readOnlyFilesystem | filesystemLoop
  | staleNetworkFileHandle | invalidInput | invalidData | timedOut | writeZero | storageFull | notSeekable
  | quotaExceeded | fileTooLarge | resourceBusy | executableFileBusy | deadlock | crossesDevices | tooManyLinks
  | invalidFilename | argumentListTooLong | interrupted | unsupported | unexpectedEof | outOfMemory
  | inProgress | inputOutputError | tooManyOpenFiles | other | uncategorized
  deriving DecidableEq, Repr

namespace FaultKind

/-- Every kind with its name and with the text of a fault that has nothing but the kind. -/
def table : List (FaultKind × String × String) := [
  (.notFound, "NotFound", "entity not found"),
  (.permissionDenied, "PermissionDenied", "permission denied"),
  (.connectionRefused, "ConnectionRefused", "connection refused"),
  (.connectionReset, "ConnectionReset", "connection reset"),
  (.hostUnreachable, "HostUnreachable", "host unreachable"),
  (.networkUnreachable, "NetworkUnreachable", "network unreachable"),
  (.connectionAborted, "ConnectionAborted", "connection aborted"),
  (.notConnected, "NotConnected", "not connected"),
  (.addrInUse, "AddrInUse", "address in use"),
  (.addrNotAvailable, "AddrNotAvailable", "address not available"),
  (.networkDown, "NetworkDown", "network down"),
  (.brokenPipe, "BrokenPipe", "broken pipe"),
  (.alreadyExists, "AlreadyExists", "entity already exists"),
  (.wouldBlock, "WouldBlock", "operation would block"),
  (.notADirectory, "NotADirectory", "not a directory"),
  (.isADirectory, "IsADirectory", "is a directory"),
  (.directoryNotEmpty, "DirectoryNotEmpty", "directory not empty"),
  (.readOnlyFilesystem, "ReadOnlyFilesystem", "read-only filesystem or storage medium"),
  (.filesystemLoop, "FilesystemLoop", "filesystem loop or indirection limit (e.g. symlink loop)"),
  (.staleNetworkFileHandle, "StaleNetworkFileHandle", "stale network file handle"),
  (.invalidInput, "InvalidInput", "invalid input parameter"),
  (.invalidData, "InvalidData", "invalid data"),
  (.timedOut, "TimedOut", "timed out"),
  (.writeZero, "WriteZero", "write zero"),
  (.storageFull, "StorageFull", "no storage space"),
  (.notSeekable, "NotSeekable", "seek on unseekable file"),
  (.quotaExceeded, "QuotaExceeded", "quota exceeded"),
  (.fileTooLarge, "FileTooLarge", "file too large"),
  (.resourceBusy, "ResourceBusy", "resource busy"),
  (.executableFileBusy, "ExecutableFileBusy", "executable file busy"),
  (.deadlock, "Deadlock", "deadlock"),
  (.crossesDevices, "CrossesDevices", "cross-device link or rename"),
  (.tooManyLinks, "TooManyLinks", "too many links"),
  (.invalidFilename, "InvalidFilename", "invalid filename"),
  (.argumentListTooLong, "ArgumentListTooLong", "argument list too long"),
  (.interrupted, "Interrupted", "operation interrupted"),
  (.unsupported, "Unsupported", "unsupported"),
  (.unexpectedEof, "UnexpectedEof", "unexpected end of file"),
  (.outOfMemory, "OutOfMemory", "out of memory"),
  (.inProgress, "InProgress", "in progress"),
  (.inputOutputError, "InputOutputError", "input/output error"),
  (.tooManyOpenFiles, "TooManyOpenFiles", "too many open files"),
  (.other, "Other", "other error"),
  (.uncategorized, "Uncategorized", "uncategorized error")]

/-- The name of a kind. -/
def name (k : FaultKind) : String := ((table.lookup k).map (·.1)).getD "Other"

/-- The text of a fault that has nothing but its kind. -/
def text (k : FaultKind) : String := ((table.lookup k).map (·.2)).getD "other error"

/-- The kinds that a fault can be reported with by name. -/
def named : List FaultKind := [
  .notFound, .permissionDenied, .resourceBusy, .executableFileBusy, .invalidData, .invalidInput, .alreadyExists,
  .wouldBlock, .timedOut, .interrupted, .unexpectedEof, .brokenPipe, .isADirectory, .notADirectory,
  .directoryNotEmpty, .readOnlyFilesystem, .unsupported, .outOfMemory, .writeZero, .other]

/-- The kind reported by that name; any other name is the kind of faults that fit no other. -/
def ofName (s : String) : FaultKind := (named.find? fun k => k.name == s).getD .other

/-- The kind of a numbered fault. -/
def ofNumber : Int → FaultKind
  | 7 => .argumentListTooLong
  | 98 => .addrInUse
  | 99 => .addrNotAvailable
  | 16 => .resourceBusy
  | 103 => .connectionAborted
  | 111 => .connectionRefused
  | 104 => .connectionReset
  | 35 => .deadlock
  | 122 => .quotaExceeded
  | 17 => .alreadyExists
  | 27 => .fileTooLarge
  | 113 => .hostUnreachable
  | 4 => .interrupted
  | 22 => .invalidInput
  | 5 => .inputOutputError
  | 21 => .isADirectory
  | 40 => .filesystemLoop
  | 2 => .notFound
  | 12 => .outOfMemory
  | 28 => .storageFull
  | 38 => .unsupported
  | 31 => .tooManyLinks
  | 36 => .invalidFilename
  | 23 => .tooManyOpenFiles
  | 24 => .tooManyOpenFiles
  | 100 => .networkDown
  | 101 => .networkUnreachable
  | 107 => .notConnected
  | 20 => .notADirectory
  | 39 => .directoryNotEmpty
  | 32 => .brokenPipe
  | 30 => .readOnlyFilesystem
  | 29 => .notSeekable
  | 116 => .staleNetworkFileHandle
  | 110 => .timedOut
  | 26 => .executableFileBusy
  | 18 => .crossesDevices
  | 115 => .inProgress
  | 95 => .unsupported
  | 13 => .permissionDenied
  | 1 => .permissionDenied
  | 11 => .wouldBlock
  | _ => .uncategorized

end FaultKind

/-- The system's texts of its numbered faults. -/
def systemTexts : List (Int × String) := [
   (1, "Operation not permitted"), (2, "No such file or directory"), (3, "No such process"),
   (4, "Interrupted system call"), (5, "Input/output error"), (6, "No such device or address"),
   (7, "Argument list too long"), (8, "Exec format error"), (9, "Bad file descriptor"),
   (10, "No child processes"), (11, "Resource temporarily unavailable"), (12, "Cannot allocate memory"),
   (13, "Permission denied"), (14, "Bad address"), (15, "Block device required"),
   (16, "Device or resource busy"), (17, "File exists"), (18, "Invalid cross-device link"),
   (19, "No such device"), (20, "Not a directory"), (21, "Is a directory"), (22, "Invalid argument"),
   (23, "Too many open files in system"), (24, "Too many open files"),
   (25, "Inappropriate ioctl for device"), (26, "Text file busy"), (27, "File too large"),
   (28, "No space left on device"), (29, "Illegal seek"), (30, "Read-only file system"),
   (31, "Too many links"), (32, "Broken pipe"), (33, "Numerical argument out of domain"),
   (34, "Numerical result out of range"), (35, "Resource deadlock avoided"), (36, "File name too long"),
   (37, "No locks available"), (38, "Function not implemented"), (39, "Directory not empty"),
   (40, "Too many levels of symbolic links"), (42, "No message of desired type"),
   (43, "Identifier removed"), (44, "Channel number out of range"), (45, "Level 2 not synchronized"),
   (46, "Level 3 halted"), (47, "Level 3 reset"), (48, "Link number out of range"),
   (49, "Protocol driver not attached"), (50, "No CSI structure available"), (51, "Level 2 halted"),
   (52, "Invalid exchange"), (53, "Invalid request descriptor"), (54, "Exchange full"), (55, "No anode"),
   (56, "Invalid request code"), (57, "Invalid slot"), (59, "Bad font file format"),
   (60, "Device not a stream"), (61, "No data available"), (62, "Timer expired"),
   (63, "Out of streams resources"), (64, "Machine is not on the network"), (65, "Package not installed"),
   (66, "Object is remote"), (67, "Link has been severed"), (68, "Advertise error"), (69, "Srmount error"),
   (70, "Communication error on send"), (71, "Protocol error"), (72, "Multihop attempted"),
   (73, "RFS specific error"), (74, "Bad message"), (75, "Value too large for defined data type"),
   (76, "Name not unique on network"), (77, "File descriptor in bad state"), (78, "Remote address changed"),
   (79, "Can not access a needed shared library"), (80, "Accessing a corrupted shared library"),
   (81, ".lib section in a.out corrupted"), (82, "Attempting to link in too many shared libraries"),
   (83, "Cannot exec a shared library directly"), (84, "Invalid or incomplete multibyte or wide character"),
   (85, "Interrupted system call should be restarted"), (86, "Streams pipe error"), (87, "Too many users"),
   (88, "Socket operation on non-socket"), (89, "Destination address required"), (90, "Message too long"),
   (91, "Protocol wrong type for socket"), (92, "Protocol not available"), (93, "Protocol not supported"),
   (94, "Socket type not supported"), (95, "Operation not supported"),
   (96, "Protocol family not supported"), (97, "Address family not supported by protocol"),
   (98, "Address already in use"), (99, "Cannot assign requested address"), (100, "Network is down"),
   (101, "Network is unreachable"), (102, "Network dropped connection on reset"),
   (103, "Software caused connection abort"), (104, "Connection reset by peer"),
   (105, "No buffer space available"), (106, "Transport endpoint is already connected"),
   (107, "Transport endpoint is not connected"), (108, "Cannot send after transport endpoint shutdown"),
   (109, "Too many references: cannot splice"), (110, "Connection timed out"), (111, "Connection refused"),
   (112, "Host is down"), (113, "No route to host"), (114, "Operation already in progress"),
   (115, "Operation now in progress"), (116, "Stale file handle"), (117, "Structure needs cleaning"),
   (118, "Not a XENIX named type file"), (119, "No XENIX semaphores available"),
   (120, "Is a named type file"), (121, "Remote I/O error"), (122, "Disk quota exceeded"),
   (123, "No medium found"), (124, "Wrong medium type"), (125, "Operation canceled"),
   (126, "Required key not available"), (127, "Key has expired"), (128, "Key has been revoked"),
   (129, "Key was rejected by service"), (130, "Owner died"), (131, "State not recoverable"),
   (132, "Operation not possible due to RF-kill"), (133, "Memory page has hardware error")]

/-- A failed operation's report. -/
inductive Fault
  | system (number : Int)
  | plain (kind : FaultKind)
  | custom (kind : FaultKind) (text : String)
  deriving DecidableEq, Repr

namespace Fault

/-- The kind of a fault. -/
def kind : Fault → FaultKind
  | system n => FaultKind.ofNumber n
  | plain k => k
  | custom k _ => k

/-- The text of a fault. -/
def text : Fault → String
  | system n => (systemTexts.lookup n).getD ("Unknown error " ++ toString n) ++ " (os error " ++ toString n ++ ")"
  | plain k => k.text
  | custom _ t => t

/-! ### The numbered faults that files and programs meet -/

/-- No entry has that name. -/
def missing : Fault := system 2
/-- The entry may not be used like that. -/
def denied : Fault := system 13
/-- The entry exists already. -/
def existing : Fault := system 17
/-- Something else than a directory stands where the path goes on. -/
def notDirectory : Fault := system 20
/-- A directory stands where a file is meant. -/
def isDirectory : Fault := system 21
/-- A name is too long. -/
def longName : Fault := system 36
/-- Links lead to links without end. -/
def loop : Fault := system 40
/-- The file is no program. -/
def notProgram : Fault := system 8

end Fault

end AppLauncher
