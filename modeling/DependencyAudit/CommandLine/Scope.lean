/-
# DependencyAudit.CommandLine.Scope -- what a run looks at

A run works on files that are known beforehand.  `visited` and `searched` name the
paths that it can look at, the manifest first (`manifest_mem_visited`), as far as
the files known so far tell: the settings say where the cache is, the manifest
says where the artifacts are, and the cache says which jars it lists.  A path that
is searched matters with all that is below it.
-/
import DependencyAudit.CommandLine.Run

namespace DependencyAudit.CommandLine

set_option autoImplicit false

/-- The path that a source is read from. -/
def CodeSource.path : CodeSource → Path
  | .classes path => path
  | .reports directory => directory

namespace Arguments

/-- The files that settings may come from. -/
def settingsPaths (arguments : Arguments) : List Path :=
  match arguments.settingsFile with
  | some path => [path]
  | none => Settings.defaultNames.map arguments.project.join

/-- The cache, the jars it lists, and the report. -/
def storedPaths (arguments : Arguments) (files : FileSystem) (settings : Settings) : List Path :=
  let cached := match settings.cache.map arguments.project.join with
    | some path => path :: (Cache.loadOr files path).listings.values.map CachedListing.path
    | none => []
  arguments.project.join settings.report.output :: cached

/-- The paths that a run looks at themselves. -/
def visited (arguments : Arguments) (files : FileSystem) : List Path :=
  arguments.manifest :: arguments.settingsPaths ++
    match settingsOf files arguments with
    | .ok settings => arguments.storedPaths files settings
    | .error _ => []

/-- The paths that a run looks below. -/
def searched (arguments : Arguments) (files : FileSystem) : List Path :=
  arguments.source.path ::
    match Manifest.load files arguments.manifest with
    | .ok manifest =>
        manifest.configurations.flatMap fun configuration =>
          configuration.artifacts.map ResolvedArtifact.file
    | .error _ => []

/-! ## Facts -/

/-- The manifest is always looked at. -/
theorem manifest_mem_visited (arguments : Arguments) (files : FileSystem) :
    arguments.manifest ∈ arguments.visited files := by
  simp [visited]

end Arguments

end DependencyAudit.CommandLine
