/-!
# Host — families of operating systems

Operating systems belong to one of two families.  A name that is not listed belongs to the family
of the first listed name that it starts with, since some names end in a release (`freebsd14`).
-/

namespace HostPrereqs.Host

/-- The listed systems and their families. -/
def families : List (String × String) :=
  [("aix", "Unix"), ("android", "Unix"), ("cygwin", "Unix"), ("darwin", "Unix"),
    ("dragonfly", "Unix"), ("emscripten", "Unix"), ("freebsd", "Unix"), ("haiku", "Unix"),
    ("hp-ux", "Unix"), ("ios", "Unix"), ("linux", "Unix"), ("midnightbsd", "Unix"),
    ("msys", "Unix"), ("netbsd", "Unix"), ("openbsd", "Unix"), ("sunos", "Unix"),
    ("wasi", "Unix"), ("win32", "Windows")]

/-- The family of a system, if it is known. -/
def family? (osName : String) : Option String :=
  families.lookup osName <|>
    (families.find? fun (listed, _) => listed.toList.isPrefixOf osName.toList).map (·.2)

end HostPrereqs.Host
