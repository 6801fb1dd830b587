import RepairSearch.Files.Name

/-!
# Faults of the file system

What the system answers instead of doing what it is asked. The numbers and their texts are those
of the system interface.
-/

namespace RepairSearch.Files

inductive Fault where
  /-- A numbered error of the system. -/
  | system (number : Nat)
  /-- The content of a file encodes no characters. -/
  | notText
  /-- A path encodes no characters. -/
  | notTextPath (path : String)
deriving DecidableEq, Repr

namespace Fault

def missing : Fault := system 2

/-- What a special file answers that nobody serves. -/
def noDevice : Fault := system 6

def notExecutable : Fault := system 8

def denied : Fault := system 13

def alreadyThere : Fault := system 17

def notDirectory : Fault := system 20

def isDirectory : Fault := system 21

def tooManyLinks : Fault := system 40

private def texts : List (Nat × String) :=
  [(0, "Success"), (1, "Operation not permitted"), (2, "No such file or directory"),
    (3, "No such process"), (4, "Interrupted system call"), (5, "Input/output error"),
    (6, "No such device or address"), (7, "Argument list too long"), (8, "Exec format error"),
    (9, "Bad file descriptor"), (10, "No child processes"),
    (11, "Resource temporarily unavailable"), (12, "Cannot allocate memory"),
    (13, "Permission denied"), (14, "Bad address"), (15, "Block device required"),
    (16, "Device or resource busy"), (17, "File exists"), (18, "Invalid cross-device link"),
    (19, "No such device"), (20, "Not a directory"), (21, "Is a directory"),
    (22, "Invalid argument"), (23, "Too many open files in system"), (24, "Too many open files"),
    (25, "Inappropriate ioctl for device"), (26, "Text file busy"), (27, "File too large"),
    (28, "No space left on device"), (29, "Illegal seek"), (30, "Read-only file system"),
    (31, "Too many links"), (32, "Broken pipe"), (33, "Numerical argument out of domain"),
    (34, "Numerical result out of range"), (35, "Resource deadlock avoided"),
    (36, "File name too long"), (37, "No locks available"), (38, "Function not implemented"),
    (39, "Directory not empty"), (40, "Too many levels of symbolic links"),
    (42, "No message of desired type"), (61, "No data available"), (71, "Protocol error"),
    (75, "Value too large for defined data type"), (84, "Invalid or incomplete multibyte or wide character"),
    (95, "Operation not supported"), (98, "Address already in use"),
    (103, "Software caused connection abort"), (104, "Connection reset by peer"),
    (110, "Connection timed out"), (111, "Connection refused"), (113, "No route to host"),
    (116, "Stale file handle"), (122, "Disk quota exceeded")]

/-- What a fault says about its cause. -/
def description : Fault → String
  | system n => (texts.lookup n).getD s!"Unknown error {n}"
  | notText => "stream did not contain valid UTF-8"
  | notTextPath path => "PathBuf contains invalid UTF-8: " ++ Name.shownPath path

/-- The description, with the number of a numbered error. -/
def message : Fault → String
  | system n => (system n).description ++ s!" (os error {n})"
  | fault => fault.description

end Fault

end RepairSearch.Files
