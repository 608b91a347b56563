import BooleanSearch.Text.Basic

/-!
# Where a configuration is kept

The directory of the configuration file: the one that the environment names, or else a fixed place
below the home directory.
-/

namespace BooleanSearch.Config

/-- The directory that holds the configuration. -/
def directory (chosen : Option Text) (home : Text) : Text :=
  chosen.getD (home ++ "/.local/share/bq".toList)

end BooleanSearch.Config
