import HybridShell.Process.Signal

/-!
# Why commands fail

Failures to build, find, start or finish a command each have their own
constructor, message and conventional status.
-/

namespace HybridShell

inductive SystemError where
  | numbered (number : Int)
  | notText
  | zeroInPath
  | zeroInArgument
  deriving Repr, DecidableEq

namespace SystemError

def notFound : SystemError := numbered 2
def argumentTooLong : SystemError := numbered 7
def accessDenied : SystemError := numbered 13
def notDirectory : SystemError := numbered 20
def isDirectory : SystemError := numbered 21
def nameTooLong : SystemError := numbered 36
def tooManyLinks : SystemError := numbered 40

def wordings : List String :=
  ["Success", "Operation not permitted", "No such file or directory", "No such process",
    "Interrupted system call", "Input/output error", "No such device or address",
    "Argument list too long", "Exec format error", "Bad file descriptor", "No child processes",
    "Resource temporarily unavailable", "Cannot allocate memory", "Permission denied",
    "Bad address", "Block device required", "Device or resource busy", "File exists",
    "Invalid cross-device link", "No such device", "Not a directory", "Is a directory",
    "Invalid argument", "Too many open files in system", "Too many open files",
    "Inappropriate ioctl for device", "Text file busy", "File too large",
    "No space left on device", "Illegal seek", "Read-only file system", "Too many links",
    "Broken pipe", "Numerical argument out of domain", "Numerical result out of range",
    "Resource deadlock avoided", "File name too long", "No locks available",
    "Function not implemented", "Directory not empty", "Too many levels of symbolic links",
    "Unknown error 41", "No message of desired type", "Identifier removed",
    "Channel number out of range", "Level 2 not synchronized", "Level 3 halted", "Level 3 reset",
    "Link number out of range", "Protocol driver not attached", "No CSI structure available",
    "Level 2 halted", "Invalid exchange", "Invalid request descriptor", "Exchange full",
    "No anode", "Invalid request code", "Invalid slot", "Unknown error 58",
    "Bad font file format", "Device not a stream", "No data available", "Timer expired",
    "Out of streams resources", "Machine is not on the network", "Package not installed",
    "Object is remote", "Link has been severed", "Advertise error", "Srmount error",
    "Communication error on send", "Protocol error", "Multihop attempted", "RFS specific error",
    "Bad message", "Value too large for defined data type", "Name not unique on network",
    "File descriptor in bad state", "Remote address changed",
    "Can not access a needed shared library", "Accessing a corrupted shared library",
    ".lib section in a.out corrupted", "Attempting to link in too many shared libraries",
    "Cannot exec a shared library directly", "Invalid or incomplete multibyte or wide character",
    "Interrupted system call should be restarted", "Streams pipe error", "Too many users",
    "Socket operation on non-socket", "Destination address required", "Message too long",
    "Protocol wrong type for socket", "Protocol not available", "Protocol not supported",
    "Socket type not supported", "Operation not supported", "Protocol family not supported",
    "Address family not supported by protocol", "Address already in use",
    "Cannot assign requested address", "Network is down", "Network is unreachable",
    "Network dropped connection on reset", "Software caused connection abort",
    "Connection reset by peer", "No buffer space available",
    "Transport endpoint is already connected", "Transport endpoint is not connected",
    "Cannot send after transport endpoint shutdown", "Too many references: cannot splice",
    "Connection timed out", "Connection refused", "Host is down", "No route to host",
    "Operation already in progress", "Operation now in progress", "Stale file handle",
    "Structure needs cleaning", "Not a XENIX named type file", "No XENIX semaphores available",
    "Is a named type file", "Remote I/O error", "Disk quota exceeded", "No medium found",
    "Wrong medium type", "Operation canceled", "Required key not available", "Key has expired",
    "Key has been revoked", "Key was rejected by service", "Owner died", "State not recoverable",
    "Operation not possible due to RF-kill", "Memory page has hardware error"]

def wording (number : Int) : String :=
  (if 0 ≤ number then wordings[number.toNat]? else none).getD
    ("Unknown error " ++ toString number)

def message : SystemError → String
  | numbered number => wording number ++ " (os error " ++ toString number ++ ")"
  | notText => "stream did not contain valid UTF-8"
  | zeroInPath => "file name contained an unexpected NUL byte"
  | zeroInArgument => "nul byte found in provided data"

def plainMessage : SystemError → String
  | numbered number => wording number
  | other => other.message

def startStatus : SystemError → Int
  | numbered 2 => 127
  | numbered 1 | numbered 13 => 126
  | _ => 1

end SystemError

inductive SpecFault where
  | emptyPipeline
  | emptyCommand
  | emptyAlias (name : String)
  | ambiguousRedirect
  | emptyRedirectTarget
  | cannotOpen (name : String) (error : SystemError)
  | invalidPattern (text : String) (position : Nat) (reason : String)
  | needsInterpreter (name : String)
  | described (text : String)
  deriving Repr, DecidableEq

namespace SpecFault

def message : SpecFault → String
  | emptyPipeline => "empty pipeline"
  | emptyCommand => "empty command"
  | emptyAlias name => "alias '" ++ name ++ "' is empty"
  | ambiguousRedirect => "ambiguous redirect"
  | emptyRedirectTarget => "redirect target is empty"
  | cannotOpen name error => name ++ ": " ++ error.message
  | invalidPattern text position reason =>
    "invalid glob pattern '" ++ text ++ "': Pattern syntax error near position "
      ++ toString position ++ ": " ++ reason
  | needsInterpreter name => name ++ ": alias needs an interpreter"
  | described text => text

end SpecFault

inductive ProcessError where
  | malformed (fault : SpecFault)
  | notFound (name : String)
  | notExecutable (name : String)
  | aliasCycle (name : String)
  | cannotStart (command : String) (error : SystemError)
  | signaled (command : String) (signal : Int)
  | failed (command : String) (code : Int)
  | interrupted
  deriving Repr, DecidableEq

namespace ProcessError

def message : ProcessError → String
  | malformed fault => fault.message
  | notFound name => "command not found: " ++ name
  | notExecutable name => "permission denied: " ++ name
  | aliasCycle name => "alias cycle detected: " ++ name
  | cannotStart command error => "failed to start " ++ command ++ ": " ++ error.message
  | signaled command signal => command ++ ": terminated by " ++ Signal.name signal
  | failed command code =>
    "command '" ++ command ++ "' returned non-zero exit status " ++ toString code
  | interrupted => "interrupted"

def exitCode : ProcessError → Int
  | malformed _ => 1
  | notFound _ => 127
  | notExecutable _ => 126
  | aliasCycle _ => 1
  | cannotStart _ error => error.startStatus
  | signaled _ signal => wrapped (128 + signal)
  | failed _ code => shellExitCode code
  | interrupted => 128 + Signal.interrupt

end ProcessError

end HybridShell
