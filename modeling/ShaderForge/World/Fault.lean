/-
**What can go wrong with files.**

One cause for each way in which an operation on files, a connection or a stored entry fails, and its
text. Causes that the system reports carry the system's number for them.
-/

namespace ShaderForge

/-- Why an operation failed. -/
inductive IoFault
  | notFound
  | denied
  | alreadyExists
  | notADirectory
  | isADirectory
  | nameTooLong
  | nulInName
  | notText
  | noPlace
  | badChecksum
  | badStream
  | unreachableNetwork
deriving DecidableEq

/-- The text of a cause. -/
def IoFault.message : IoFault → String
  | notFound => "No such file or directory (os error 2)"
  | denied => "Permission denied (os error 13)"
  | alreadyExists => "File exists (os error 17)"
  | notADirectory => "Not a directory (os error 20)"
  | isADirectory => "Is a directory (os error 21)"
  | nameTooLong => "File name too long (os error 36)"
  | nulInName => "file name contained an unexpected NUL byte"
  | notText => "stream did not contain valid UTF-8"
  | noPlace => "failed to create whole tree"
  | badChecksum => "Invalid checksum"
  | badStream => "corrupt deflate stream"
  | unreachableNetwork => "Network is unreachable (os error 101)"

end ShaderForge
