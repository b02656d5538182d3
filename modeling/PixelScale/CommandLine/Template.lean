import PixelScale.Text

/-!
# The starter configuration

A configuration that says what the defaults say, with a remark on every option.
-/

namespace PixelScale

/-- The text of the starter configuration. -/
def configTemplate : Text :=
  [ "# px2unit configuration",
    "#",
    "# For several option entries use [[options]] tables instead; a file gets the",
    "# last entry whose excludeFiles does not match its path.",
    "",
    "# Unit written after converted numbers",
    "unit = \"rem\"",
    "",
    "# Pixels per unit",
    "rootValue = 16",
    "",
    "# Decimals kept after rounding",
    "unitPrecision = 5",
    "",
    "# Properties to convert: exact names, \"*\", \"foo*\", \"*foo\", \"*foo*\", \"!foo\"",
    "propList = [\"font\", \"font-size\", \"line-height\", \"letter-spacing\"]",
    "",
    "# Rules whose selector contains one of these are skipped; \x7b pattern = \"...\" \x7d for a regex",
    "selectorBlackList = []",
    "",
    "# false keeps the px declaration and adds the converted one after it",
    "replace = true",
    "",
    "# Also convert px inside @media parameters",
    "mediaQuery = false",
    "",
    "# px values below this are left alone",
    "minPixelValue = 0",
    "",
    "# Files to skip; substrings or \x7b pattern = \"...\" \x7d",
    "excludeFiles = []" ].flatMap fun line => line.toList ++ ['\n']

end PixelScale
