/-
The guide to the naming rules and the commands, as it is printed.
-/

namespace ClassNaming.Cli

/-- the version that is shown -/
def version : String := "1.0.0"

/-- the lines of the guide -/
def guideLines : List String := [
  "",
  "HCNC -- Hikasami CSS Naming Convention Validator",
  "================================================",
  "",
  "Checks CSS class names against the HCNC convention.",
  "",
  "",
  "USAGE",
  "-----",
  "",
  "  hcnc validate <classes>       Validate a class string",
  "  hcnc validate --selector <s>  Validate the classes of a CSS selector",
  "  hcnc validate --scss FILE     Expand SCSS nesting and validate selectors",
  "  hcnc check <path>             Check files in a directory",
  "  hcnc init                     Add HCNC plugins to biome.json",
  "  hcnc patterns                 Print the regex sources (JSON)",
  "  hcnc config                   Show configuration",
  "  hcnc config --set KEY=VALUE   Set a value (add --user for user scope)",
  "  hcnc help                     Show this help message",
  "",
  "  Common flags: --strict (reject utilities), --allow-unknown,",
  "  --format \x7bauto,list,summary,json\x7d, --verbose, --project DIR",
  "",
  "",
  "EXAMPLES",
  "--------",
  "",
  "  hcnc validate \"card card_info isActive\"",
  "  hcnc validate \"card__title\"               # Will show error",
  "  hcnc validate --selector \".card:hover .card_info.isActive\"",
  "  hcnc check ./src",
  "  hcnc check ./src --format json",
  "  hcnc init",
  "",
  "",
  "HCNC NAMING RULES",
  "-----------------",
  "",
  "  Block:          card, button, header-nav",
  "  Element L1:     card_info, button_icon",
  "  Element L2:     card_info__title, card_info__description",
  "  Modifier:       card--highlighted, button--large, card_info--active",
  "  State:          isActive, hasError, isLoading",
  "  Utility:        mt-2, flex, text-center",
  "",
  "  - Lowercase everywhere except states (is/has + PascalCase)",
  "  - One underscore for a first-level element, two for the second level",
  "  - No deeper nesting than two levels",
  "  - Modifiers attach with a double hyphen",
  "",
  "",
  "CONFIGURATION",
  "-------------",
  "",
  "  Project:  .hcnc/config.yaml",
  "  User:     ~/.hcnc/config.yaml",
  "",
  "  rules.strict_bem        Reject utility classes        (true/false)",
  "  rules.allow_unknown     Pass unknown classes          (true/false)",
  "  rules.custom_utilities  Extra utility regexes         (comma-separated)",
  "  display.symbols         auto | unicode | ascii",
  "  display.format          auto | list | summary | json",
  "  scan.exclude_dirs       Directory names to skip       (comma-separated)",
  ""]

/-- the guide -/
def guide : String :=
  "\n".intercalate guideLines

end ClassNaming.Cli
